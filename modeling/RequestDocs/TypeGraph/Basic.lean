import RequestDocs.Fault
import RequestDocs.Json.Basic
/-!
# Type graphs

Types as nodes that refer to one another by id, so that records may contain themselves. Looking up
an id of another graph is a fault.
-/

namespace RequestDocs

/-- The identity of a type. Two types are the same exactly when their ids are. -/
structure TypeId where
  index : Nat
deriving DecidableEq

structure Field where
  name : String
  type : TypeId
deriving DecidableEq

/-- The shape of a type. -/
inductive TypeNode
  | scalar (name : String)
  | literal (value : Json)
  | record (name : Option String) (base : Option TypeId) (fields : List Field)
  | union (name : Option String) (variants : List TypeId)
  | array (element : TypeId)
  | unknown (kind : String)
deriving Inhabited

namespace TypeNode

/-- The name under which a record or union was declared. -/
def declaredName? : TypeNode → Option String
  | record name _ _ => name
  | union name _ => name
  | _ => none

def isRecord : TypeNode → Bool
  | record .. => true
  | _ => false

def literal? : TypeNode → Option Json
  | literal value => some value
  | _ => none

/-- The ids a node refers to: the base of a record before its fields. -/
def references : TypeNode → List TypeId
  | record _ base fields => base.toList ++ fields.map (·.type)
  | union _ variants => variants
  | array element => [element]
  | _ => []

def pending : TypeNode := unknown "pending"

end TypeNode

/-- Nodes by the index of their id. -/
structure TypeGraph where
  nodes : Array TypeNode

namespace TypeGraph

def empty : TypeGraph := ⟨#[]⟩

def size (g : TypeGraph) : Nat := g.nodes.size

def get (g : TypeGraph) (id : TypeId) : Except Fault TypeNode :=
  match g.nodes[id.index]? with
  | some node => .ok node
  | none => .error (.foreignType id.index)

def add (g : TypeGraph) (node : TypeNode) : TypeId × TypeGraph :=
  (⟨g.nodes.size⟩, ⟨g.nodes.push node⟩)

def reserve (g : TypeGraph) : TypeId × TypeGraph := g.add .pending

def replace (g : TypeGraph) (id : TypeId) (node : TypeNode) : Except Fault TypeGraph :=
  if id.index < g.nodes.size then .ok ⟨g.nodes.setIfInBounds id.index node⟩
  else .error (.foreignType id.index)

theorem get_add_self (g : TypeGraph) (node : TypeNode) : (g.add node).2.get (g.add node).1 = .ok node := by
  simp [add, get]

theorem get_add_of_lt (g : TypeGraph) (node : TypeNode) {id : TypeId} (h : id.index < g.size) :
    (g.add node).2.get id = g.get id := by
  have hne : id.index ≠ g.nodes.size := Nat.ne_of_lt h
  simp [add, get, Array.getElem?_push, hne]

def ofList (nodes : List TypeNode) : TypeGraph := ⟨nodes.toArray⟩

end TypeGraph

end RequestDocs
