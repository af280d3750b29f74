import RequestDocs.Naming.Identifier
import RequestDocs.Naming.Unique
import RequestDocs.TypeGraph.Basic
/-!
# Name registries

The names given to types: each type is named once, and no two types share a name.
-/

namespace RequestDocs

/-- Types with their names, in the order in which the names were given, and the names in use. -/
structure NameRegistry where
  names : List (TypeId × String)
  used : List String
  inStep : used = names.map (·.2)
deriving DecidableEq

namespace NameRegistry

def empty : NameRegistry := ⟨[], [], rfl⟩

def insert (r : NameRegistry) (id : TypeId) (name : String) : NameRegistry where
  names := r.names ++ [(id, name)]
  used := r.used ++ [name]
  inStep := by rw [r.inStep, List.map_append, List.map_singleton]

@[simp] theorem names_insert (r : NameRegistry) (id : TypeId) (name : String) :
    (r.insert id name).names = r.names ++ [(id, name)] := rfl

@[simp] theorem used_insert (r : NameRegistry) (id : TypeId) (name : String) :
    (r.insert id name).used = r.used ++ [name] := rfl

theorem eq_of_names {r r' : NameRegistry} (h : r.names = r'.names) : r = r' := by
  have hused : r.used = r'.used := by rw [r.inStep, r'.inStep, h]
  cases r
  cases r'
  cases h
  cases hused
  rfl

def nameOf? (r : NameRegistry) (id : TypeId) : Option String := r.names.lookup id

theorem nameOf?_insert (r : NameRegistry) (id : TypeId) (name : String) (id' : TypeId) :
    (r.insert id name).nameOf? id' = (r.nameOf? id').or (if id' = id then some name else none) := by
  rw [nameOf?, names_insert, List.lookup_append, List.lookup_cons]
  by_cases h : id' = id
  · simp [nameOf?, h]
  · rw [beq_false_of_ne h, if_neg h]
    rfl

theorem nameOf?_insert_self {r : NameRegistry} {id : TypeId} (h : r.nameOf? id = none)
    (name : String) : (r.insert id name).nameOf? id = some name := by
  rw [nameOf?_insert, h, if_pos rfl]
  rfl

/-- The name of a type and the registry afterwards. A type without a name gets the one it was
declared with, or else the hint, with a suffix if that is in use. -/
def nameFor [Spelling] (r : NameRegistry) (g : TypeGraph) (id : TypeId) (hint : String) :
    Except Fault (String × NameRegistry) :=
  match r.nameOf? id with
  | some name => .ok (name, r)
  | none => do
    let node ← g.get id
    let name := Naming.unique (Naming.typeName (node.declaredName?.getD hint)) r.used
    return (name, r.insert id name)

theorem nameFor_of_named [Spelling] (r : NameRegistry) (g : TypeGraph) (id : TypeId) (hint : String)
    {name : String} (h : r.nameOf? id = some name) : r.nameFor g id hint = .ok (name, r) := by
  simp [nameFor, h]

def isSynthetic (r : NameRegistry) (g : TypeGraph) (id : TypeId) : Except Fault Bool :=
  match r.nameOf? id with
  | none => .ok false
  | some _ => do return (← g.get id).declaredName?.isNone

end NameRegistry

end RequestDocs
