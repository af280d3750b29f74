import RequestDocs.OpenApi.Api
import RequestDocs.Sample.Synthesis
/-!
# Lowering schemas

Schemas as nodes of a type graph. A component is lowered once, when it is first referred to; its id
is known before its schema is lowered, so that references back to it close into cycles.
-/

namespace RequestDocs.OpenApi

/-- The graph, the ids of components by name, and the pointers of components by id. -/
structure LoweringState where
  graph : TypeGraph
  components : List (String × TypeId)
  pointers : List (TypeId × String)

def LoweringState.initial : LoweringState := ⟨.empty, [], []⟩

abbrev Lowering := EStateM Fault LoweringState

namespace Lowering

def add (node : TypeNode) : Lowering TypeId := do
  let state ← get
  let (id, graph) := state.graph.add node
  set { state with graph }
  return id

def reserve : Lowering TypeId := add .pending

def replace (id : TypeId) (node : TypeNode) : Lowering Unit := do
  let state ← get
  let graph ← liftFault (state.graph.replace id node)
  set { state with graph }

/-- A node at the reserved id, or at a new one. -/
def place (node : TypeNode) : (slot : Option TypeId) → Lowering TypeId
  | some slot => do
    replace slot node
    return slot
  | none => add node

/-- All fields of a type as far as they are known. -/
def fieldsOf (id : TypeId) : Lowering (List Field) := do liftFault ((← get).graph.allFields id)

def rename (name : Option String) (node : TypeNode) : TypeNode :=
  match name, node with
  | some name, .record _ base fields => .record (some name) base fields
  | some name, .union _ variants => .union (some name) variants
  | _, node => node

/-- A component that only stands for another type: a copy of the node that type has now. -/
def copyTo (name : Option String) (slot : Option TypeId) (target : TypeId) : Lowering TypeId :=
  match slot with
  | none => return target
  | some slot =>
    if slot = target then return slot
    else do
      let node ← liftFault ((← get).graph.get target)
      place (rename name node) (some slot)

def enter (name path : String) : Lowering TypeId := do
  let slot ← reserve
  modify fun s => { s with
    components := (name, slot) :: s.components
    pointers := (slot, path) :: s.pointers }
  return slot

section

variable (components : ApiComponents) (expand : String → TypeId → Schema → Lowering TypeId)

/-- The id of a referenced component, which `expand` lowers when it is met for the first time. -/
def lowerReference (path : String) : Lowering TypeId := do
  match ← liftFault (Reference.localName? path) with
  | none => add (.unknown ("external reference " ++ path))
  | some name =>
    match (← get).components.lookup name with
    | some id => return id
    | none =>
      let slot ← enter name path
      match ← liftFault (components.resolveSchema (.reference path)) with
      | some schema => expand name slot schema
      | none => place (.unknown ("unresolved reference " ++ path)) (some slot)

/-- Whether an alternative only adds null to a union. -/
def isNullAlternative (schema : Schema) : Lowering Bool := do
  return ((← liftFault (components.resolveSchema schema)).map (·.isNullableObject)).getD false

/-- The literals of an enumeration: a union, or null when it has no other value. -/
def lowerEnum (values : List Json) (name : Option String) (slot : Option TypeId) :
    Lowering TypeId := do
  let variants ← (values.filter (!·.isNull)).mapM fun value => add (.literal value)
  if variants.isEmpty then place (.literal .null) slot
  else place (.union name variants) slot

/-- A record at a slot, which has an id before its fields are lowered. -/
def lowerRecord (own : Lowering (List Field)) (name : Option String) (slot : Option TypeId) :
    Lowering TypeId := do
  let slot ← (slot.map pure).getD reserve
  let fields ← own
  replace slot (.record name none fields)
  return slot

def lowerArray (element : Lowering TypeId) (slot : Option TypeId) : Lowering TypeId := do
  place (.array (← element)) slot

def lowerType (facts : SchemaFacts) (record : Option String → Option TypeId → Lowering TypeId)
    (array : Option TypeId → Lowering TypeId) (name : Option String) (slot : Option TypeId) :
    SchemaType → Lowering TypeId
  | .object => record name slot
  | .array => array slot
  | .null => place (.unknown "null") slot
  | type => place (.scalar ((facts.scalarName? type).getD "string")) slot

def lowerTypes (facts : SchemaFacts) (record : Option String → Option TypeId → Lowering TypeId)
    (array : Option TypeId → Lowering TypeId) (hasProperties : Bool) (name : Option String)
    (slot : Option TypeId) : Lowering TypeId := do
  match facts.types.declared with
  | [] => if hasProperties then record name slot else place (.unknown "any") slot
  | [type] => lowerType facts record array name slot type
  | types =>
    let variants ← types.mapM fun type => lowerType facts record array none none type
    place (.union name variants) slot

mutual

/-- The id of a schema. A component is placed at its slot under its name. -/
def lower (name : Option String) (slot : Option TypeId) : Schema → Lowering TypeId
  | .reference path => lowerReference components expand path
  | .object facts allOf oneOf anyOf properties items =>
    let record := lowerRecord (lowerProperties properties)
    let array := lowerArray (lowerItems items)
    match allOf, properties.isEmpty with
    | [only], true => do copyTo name slot (← lower none none only)
    | [], _ =>
      if !facts.enumValues.isEmpty then lowerEnum facts.enumValues name slot
      else match facts.constValue with
        | some value => place (.literal value) slot
        | none =>
          if oneOf.isEmpty && anyOf.isEmpty then
            lowerTypes facts record array (!properties.isEmpty) name slot
          else do
            let variants := (← lowerAlternatives oneOf) ++ (← lowerAlternatives anyOf)
            match variants, properties.isEmpty with
            | [only], true => copyTo name slot only
            | _, _ => place (.union name variants) slot
    | members, _ => do
      let slot ← (slot.map pure).getD reserve
      let base ← (members.findSome? (·.path?)).mapM (lowerReference components expand)
      let inherited ← lowerMembers base.isSome members
      let own ← lowerProperties properties
      replace slot (.record name base (inherited ++ own))
      return slot

def lowerItems : Items Schema → Lowering TypeId
  | .absent => add (.unknown "any")
  | .boolean => add (.unknown "boolean schema")
  | .schema schema => lower none none schema

/-- The fields of the members of a composition. The first reference is left out when it is the
base. -/
def lowerMembers (hasBase : Bool) : List Schema → Lowering (List Field)
  | [] => return []
  | member :: members =>
    if hasBase && member.path?.isSome then lowerMembers false members
    else do
      let fields ← fieldsOf (← lower none none member)
      return fields ++ (← lowerMembers hasBase members)

def lowerAlternatives : List Schema → Lowering (List TypeId)
  | [] => return []
  | alternative :: alternatives => do
    if ← isNullAlternative components alternative then lowerAlternatives alternatives
    else
      let id ← lower none none alternative
      return id :: (← lowerAlternatives alternatives)

def lowerProperties : List (String × Schema) → Lowering (List Field)
  | [] => return []
  | (name, schema) :: properties => do
    let id ← lower none none schema
    return ⟨name, id⟩ :: (← lowerProperties properties)

end

end

/-- Lowers the schema of a component; `fuel` bounds how many components are under construction at
once. -/
def expandComponent (components : ApiComponents) :
    (fuel : Nat) → String → TypeId → Schema → Lowering TypeId
  | 0, _, _, _ => throw .exhausted
  | fuel + 1, name, slot, schema =>
    lower components (expandComponent components fuel) (some name) (some slot) schema

/-- The id of a schema outside the components. A component under construction is entered already,
so no more of them nest than there are. -/
def lowerSchema (components : ApiComponents) (schema : Schema) : Lowering TypeId :=
  lower components (expandComponent components components.schemas.length) none none schema

end Lowering

end RequestDocs.OpenApi
