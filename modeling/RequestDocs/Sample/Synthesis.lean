import RequestDocs.NameRegistry
import RequestDocs.Sample.Basic
import RequestDocs.Sample.Issue
import RequestDocs.TypeGraph.Description
import RequestDocs.TypeGraph.Fields
import RequestDocs.VisitQueue
/-!
# Synthesis

The sample of a type: a walk of the graph that opens records up to a depth, names every record it
meets and queues it for a model of its own.
-/

namespace RequestDocs

/-- The names and the queue of a run, and the issues met so far. -/
structure SynthesisState where
  registry : NameRegistry
  queue : VisitQueue TypeId
  issues : List Issue

def SynthesisState.initial : SynthesisState := ⟨.empty, .empty, []⟩

/-- A step that may change the state, also when it ends in a fault. -/
abbrev Synthesis := EStateM Fault SynthesisState

def liftFault {σ α : Type} : Except Fault α → EStateM Fault σ α
  | .ok value => pure value
  | .error fault => throw fault

namespace Synthesis

def defaultMaxDepth : Nat := 3

/-- The name of a record, which is queued. -/
def discover [Spelling] (g : TypeGraph) (id : TypeId) (hint : String) : Synthesis String := do
  let state ← get
  let (name, registry) ← liftFault (state.registry.nameFor g id hint)
  set { state with registry, queue := (state.queue.enqueue id).2 }
  return name

def discoverIfRecord [Spelling] (g : TypeGraph) (id : TypeId) (hint : String) : Synthesis Unit := do
  if (← liftFault (g.get id)).isRecord then
    let _ ← discover g id hint

def report (issue : Issue) : Synthesis Unit :=
  modify fun state => { state with issues := state.issues ++ [issue] }

/-- How a type reads in a note: a record by its name in this run, everything else described. -/
def label (g : TypeGraph) (id : TypeId) : Synthesis String := do
  match (← get).registry.nameOf? id with
  | some name =>
    if (← liftFault (g.get id)).isRecord then return name else liftFault (g.describe id)
  | none => liftFault (g.describe id)

def scalarSample (path name : String) : Synthesis Sample := do
  if (Sample.scalar? name).isNone then report (.unmappedScalar path name)
  return .leaf (.scalar name)

/-- The records among variants, named by their place in the union. -/
def discoverVariants [Spelling] (g : TypeGraph) (hint : String) : (place : Nat) → List TypeId →
    Synthesis Unit
  | _, [] => return
  | place, variant :: variants => do
    discoverIfRecord g variant (hint ++ "Variant" ++ toString place)
    discoverVariants g hint (place + 1) variants

def firstLiteral? (g : TypeGraph) : List TypeId → Except Fault (Option Json)
  | [] => return none
  | variant :: variants => do
    match (← g.get variant).literal? with
    | some value => return some value
    | none => firstLiteral? g variants

/-- The sample of a union: its first literal variant. -/
def unionSample [Spelling] (g : TypeGraph) (hint path : String) (variants : List TypeId) :
    Synthesis Sample := do
  discoverVariants g hint 1 variants
  let labels ← variants.mapM (label g)
  let literal ← liftFault (firstLiteral? g variants)
  if literal.isNone then report (.unrepresentableUnion path (Sample.alternatives labels))
  return .leaf (.union labels literal)

def arraySample [Spelling] (g : TypeGraph) (hint : String) (element : TypeId) :
    Synthesis Sample := do
  discoverIfRecord g element (hint ++ "Item")
  return .leaf (.array (← label g element))

/-- The sample of a type below the open records `above`, of which `room` more may be opened. -/
def sampleBelow [Spelling] (g : TypeGraph) : (room : Nat) → (above : List TypeId) →
    (hint path : String) → TypeId → Synthesis Sample
  | room, above, hint, path, id => do
    match ← liftFault (g.get id) with
    | .scalar name => scalarSample path name
    | .literal value => return .leaf (.literal value)
    | .union _ variants => unionSample g hint path variants
    | .array element => arraySample g hint element
    | .unknown kind => return .leaf (.unknown kind)
    | .record .. =>
      let name ← discover g id hint
      if id ∈ above then return .leaf (.recursive name)
      else match room with
        | 0 => return .leaf (.cutOff name)
        | room + 1 =>
          let entries ← (← liftFault (g.allFields id)).mapM fun field => do
            let sample ← sampleBelow g room (id :: above) (name ++ Naming.typeName field.name)
              (name ++ "." ++ field.name) field.type
            return (Naming.fieldName field.name, sample)
          return .block name entries

/-- The sample of a root. The root record always opens. -/
def sample [Spelling] (g : TypeGraph) (maxDepth : Nat) (hint : String) (root : TypeId) :
    Synthesis Sample :=
  sampleBelow g (max maxDepth 1) [] hint hint root

def synthesize [Spelling] (g : TypeGraph) (maxDepth : Nat) (hint : String) (root : TypeId) :
    Synthesis (List String) := do
  return (← sample g maxDepth hint root).lines

end Synthesis

end RequestDocs
