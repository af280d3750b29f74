import Mathlib.Data.List.Forall2
import Mathlib.Data.Option.Basic
import RequestDocs.Naming.PascalCase
import RequestDocs.OpenApi.Requests
/-!
# Nullable types

Null beside another type changes nothing in what a description stands for, wherever a schema adds it,
but for one place: an alternative of a union that stands for an object without properties is left out
once it may be null.
-/

namespace RequestDocs.OpenApi

inductive TypeSet.NullAdded : TypeSet → TypeSet → Prop
  | same (types : TypeSet) : NullAdded types types
  | added {type : SchemaType} (h : type ≠ .null) : NullAdded (.single type) (.multiple [type, .null])

structure SchemaFacts.NullAdded (facts facts' : SchemaFacts) : Prop where
  types : facts.types.NullAdded facts'.types
  format : facts'.format = facts.format
  enumValues : facts'.enumValues = facts.enumValues
  constValue : facts'.constValue = facts.constValue

section

variable {α : Type} (R : α → α → Prop)

inductive Items.Related : Items α → Items α → Prop
  | absent : Related .absent .absent
  | boolean : Related .boolean .boolean
  | schema {schema schema' : α} (h : R schema schema') : Related (.schema schema) (.schema schema')

inductive OrReference.Related : OrReference α → OrReference α → Prop
  | reference (path : String) : Related (.reference path) (.reference path)
  | object {value value' : α} (h : R value value') : Related (.object value) (.object value')

def EntriesRelated : List (String × α) → List (String × α) → Prop :=
  List.Forall₂ fun entry entry' => entry'.1 = entry.1 ∧ R entry.2 entry'.2

inductive OutcomesRelated : Except Fault (Option α) → Except Fault (Option α) → Prop
  | fault (f : Fault) : OutcomesRelated (.error f) (.error f)
  | value {value? value?' : Option α} (h : Option.Rel R value? value?') :
      OutcomesRelated (.ok value?) (.ok value?')

end

/-- The schemas are the same but for null that is added to single types, there and in what they are
made of. Alternatives are `kept` besides. -/
inductive Schema.NullAdded (kept : Schema → Schema → Prop) : Schema → Schema → Prop
  | reference (path : String) : NullAdded kept (.reference path) (.reference path)
  | object {facts facts' : SchemaFacts} {allOf allOf' oneOf oneOf' anyOf anyOf' : List Schema}
      {properties properties' : List (String × Schema)} {items items' : Items Schema}
      (hfacts : facts.NullAdded facts') (hallOf : List.Forall₂ (NullAdded kept) allOf allOf')
      (honeOf : List.Forall₂ (NullAdded kept) oneOf oneOf')
      (hanyOf : List.Forall₂ (NullAdded kept) anyOf anyOf')
      (hkept : List.Forall₂ kept oneOf oneOf' ∧ List.Forall₂ kept anyOf anyOf')
      (hnames : properties'.map Prod.fst = properties.map Prod.fst)
      (hproperties : List.Forall₂ (NullAdded kept) (properties.map Prod.snd) (properties'.map Prod.snd))
      (hitems : Items.Related (NullAdded kept) items items') :
      NullAdded kept (.object facts allOf oneOf anyOf properties items)
        (.object facts' allOf' oneOf' anyOf' properties' items')

/-- What the schemas stand for is no object without properties to which null is added. -/
def ApiComponents.Keeps (c c' : ApiComponents) (schema schema' : Schema) : Prop :=
  ∀ target target', c.resolveSchema schema = .ok (some target) →
    c'.resolveSchema schema' = .ok (some target') → target.facts.types = .single .object →
      target.properties = [] → target'.facts.types = target.facts.types

section

variable (kept : Schema → Schema → Prop)

def ApiBody.NullAdded (body body' : ApiBody) : Prop :=
  EntriesRelated (Option.Rel (Schema.NullAdded kept)) body.content body'.content

structure ApiOperation.NullAdded (op op' : ApiOperation) : Prop where
  operationId : op'.operationId = op.operationId
  tags : op'.tags = op.tags
  parameters : op'.parameters = op.parameters
  requestBody : Option.Rel (OrReference.Related (ApiBody.NullAdded kept)) op.requestBody op'.requestBody

structure ApiPath.NullAdded (item item' : ApiPath) : Prop where
  operations : EntriesRelated (ApiOperation.NullAdded kept) item.operations item'.operations
  parameters : item'.parameters = item.parameters

structure ApiComponents.NullAdded (c c' : ApiComponents) : Prop where
  schemas : EntriesRelated (Schema.NullAdded kept) c.schemas c'.schemas
  parameters : c'.parameters = c.parameters
  requestBodies : EntriesRelated (OrReference.Related (ApiBody.NullAdded kept)) c.requestBodies
    c'.requestBodies

end

/-- The descriptions are the same but for null that is added to single types of schemas, of any number
and at any depth, none of them an object without properties that an alternative stands for. -/
structure Api.NullAdded (api api' : Api) : Prop where
  title : api'.title = api.title
  security : api'.security = api.security
  paths : EntriesRelated (ApiPath.NullAdded (api.components.Keeps api'.components)) api.paths api'.paths
  components : api.components.NullAdded (api.components.Keeps api'.components) api'.components

theorem SchemaType.ofName?_name (type : SchemaType) : ofName? type.name = some type := by
  cases type <;> rfl

theorem TypeSet.nullAdded_ofJson {type : SchemaType} (h : type ≠ .null) :
    (TypeSet.ofJson (.string type.name)).NullAdded
      (TypeSet.ofJson (.array [.string type.name, .string SchemaType.null.name])) := by
  simp only [TypeSet.ofJson, List.filterMap_cons, List.filterMap_nil, Json.text?, Option.bind_some,
    SchemaType.ofName?_name, Option.map_some, Option.getD_some]
  exact .added h

theorem TypeSet.NullAdded.declared {types types' : TypeSet} (h : types.NullAdded types') :
    types'.declared = types.declared := by
  cases h with
  | same => rfl
  | @added type hnull => simp [TypeSet.declared, hnull]

theorem SchemaFacts.NullAdded.scalarName? {facts facts' : SchemaFacts} (h : facts.NullAdded facts')
    (type : SchemaType) : facts'.scalarName? type = facts.scalarName? type := by
  cases type <;> simp [SchemaFacts.scalarName?, h.format]

section

variable {α : Type} {R : α → α → Prop}

theorem EntriesRelated.lookup {entries entries' : List (String × α)}
    (h : EntriesRelated R entries entries') (key : String) :
    Option.Rel R (entries.lookup key) (entries'.lookup key) := by
  induction h with
  | nil => exact .none
  | @cons entry entry' entries entries' hfirst _ ih =>
    obtain ⟨name, value⟩ := entry
    obtain ⟨name', value'⟩ := entry'
    obtain ⟨hname, hvalue⟩ := hfirst
    obtain rfl : name' = name := hname
    rw [List.lookup_cons, List.lookup_cons]
    split
    · exact .some hvalue
    · exact ih

theorem EntriesRelated.keys {entries entries' : List (String × α)} (h : EntriesRelated R entries entries') :
    entries'.map (·.1) = entries.map (·.1) := by
  induction h with
  | nil => rfl
  | cons hfirst _ ih => rw [List.map_cons, List.map_cons, hfirst.1, ih]

theorem resolveIn_related {kind : String} {path? : α → Option String}
    (hpath : ∀ value value', R value value' → path? value' = path? value)
    {table table' : List (String × α)} (htable : EntriesRelated R table table') (fuel : Nat)
    {value value' : α} (h : R value value') :
    OutcomesRelated R (resolveIn kind path? table fuel value)
      (resolveIn kind path? table' fuel value') := by
  induction fuel generalizing value value' with
  | zero => exact .value .none
  | succ fuel ih =>
    unfold resolveIn
    rw [hpath value value' h]
    cases path? value with
    | none => exact .value (.some h)
    | some path =>
      cases hparse : Reference.parse path with
      | error fault =>
        simp only [hparse]
        exact .fault fault
      | ok reference =>
        simp only [hparse, bind, Except.bind]
        split
        · have hlookup := htable.lookup reference.name
          generalize table.lookup reference.name = found at hlookup ⊢
          generalize table'.lookup reference.name = found' at hlookup ⊢
          cases hlookup with
          | none => exact .value .none
          | some htarget => exact ih htarget
        · exact .value .none

end

theorem isEmpty_of_forall₂ {α : Type} {R : α → α → Prop} {xs ys : List α} (h : List.Forall₂ R xs ys) :
    ys.isEmpty = xs.isEmpty := by
  cases h <;> rfl

theorem isEmpty_of_names {properties properties' : List (String × Schema)}
    (h : properties'.map Prod.fst = properties.map Prod.fst) :
    properties'.isEmpty = properties.isEmpty := by
  have hempty := congrArg List.isEmpty h
  simpa using hempty

namespace Schema

variable {kept : Schema → Schema → Prop} {schema schema' : Schema}

theorem NullAdded.path? (h : schema.NullAdded kept schema') : schema'.path? = schema.path? := by
  cases h <;> rfl

theorem NullAdded.isNullableObject (h : schema.NullAdded kept schema')
    (hbare : schema.facts.types = .single .object → schema.properties = [] →
      schema'.facts.types = schema.facts.types) :
    schema'.isNullableObject = schema.isNullableObject := by
  cases h with
  | reference path => rfl
  | @object facts facts' _ _ _ _ _ _ properties properties' _ _ hfacts _ _ _ _ hnames _ _ =>
    have htypes := hfacts.types
    simp only [Schema.facts, Schema.properties] at hbare
    simp only [isNullableObject, isNull, Schema.facts, Schema.properties, isEmpty_of_names hnames]
    generalize facts.types = types at htypes hbare ⊢
    generalize facts'.types = types' at htypes hbare ⊢
    cases htypes with
    | same => rfl
    | @added type hnull =>
      cases hproperties : properties with
      | cons entry entries => simp [TypeSet.single?, TypeSet.isNullableRecord, hnull]
      | nil =>
        have hobject : type ≠ .object := by
          intro hobject
          have hsame := hbare (by rw [hobject]) hproperties
          cases hsame
        simp [TypeSet.single?, TypeSet.isNullableRecord, hnull, hobject.symm]

end Schema

variable {c c' : ApiComponents} {schema schema' : Schema}

theorem ApiComponents.NullAdded.resolveSchema {kept : Schema → Schema → Prop}
    (hc : c.NullAdded kept c') (h : schema.NullAdded kept schema') :
    OutcomesRelated (Schema.NullAdded kept) (c.resolveSchema schema) (c'.resolveSchema schema') := by
  have hlength : c'.schemas.length = c.schemas.length := hc.schemas.length_eq.symm
  unfold ApiComponents.resolveSchema
  rw [hlength]
  exact resolveIn_related (fun _ _ hrelated => hrelated.path?) hc.schemas _ h

namespace Lowering

theorem isNullAlternative_eq (hc : c.NullAdded (c.Keeps c') c') (h : schema.NullAdded (c.Keeps c') schema')
    (hkept : c.Keeps c' schema schema') :
    isNullAlternative c' schema' = isNullAlternative c schema := by
  have houtcomes := hc.resolveSchema h
  unfold ApiComponents.Keeps at hkept
  unfold isNullAlternative
  generalize c.resolveSchema schema = outcome at houtcomes hkept ⊢
  generalize c'.resolveSchema schema' = outcome' at houtcomes hkept ⊢
  cases houtcomes with
  | fault f => rfl
  | value htargets =>
    cases htargets with
    | none => rfl
    | @some target target' htarget =>
      have hsame := htarget.isNullableObject (hkept target target' rfl rfl)
      exact congrArg (fun b : Bool => (pure b : Lowering Bool)) hsame

private theorem liftFault_ok_bind {α β : Type} (a : α) (next : α → Lowering β) :
    (liftFault (.ok a) >>= next) = next a := rfl

private theorem liftFault_error_bind {α β : Type} (f : Fault) (next : α → Lowering β) :
    (liftFault (.error f) >>= next) = throw f := rfl

variable {expand expand' : String → TypeId → Schema → Lowering TypeId}

theorem lowerReference_eq (hc : c.NullAdded (c.Keeps c') c')
    (hexpand : ∀ name slot schema schema', schema.NullAdded (c.Keeps c') schema' →
      expand' name slot schema' = expand name slot schema) (path : String) :
    lowerReference c' expand' path = lowerReference c expand path := by
  have houtcomes := hc.resolveSchema (.reference path)
  unfold lowerReference
  generalize c.resolveSchema (.reference path) = outcome at houtcomes ⊢
  generalize c'.resolveSchema (.reference path) = outcome' at houtcomes ⊢
  cases houtcomes with
  | fault f => simp only [liftFault_error_bind]
  | value htargets =>
    cases htargets with
    | none => simp only [liftFault_ok_bind]
    | some htarget =>
      have hsame (name : String) (slot : TypeId) := hexpand name slot _ _ htarget
      simp only [liftFault_ok_bind, hsame]

theorem lowerType_eq {facts facts' : SchemaFacts} (h : facts.NullAdded facts')
    (record : Option String → Option TypeId → Lowering TypeId) (array : Option TypeId → Lowering TypeId)
    (name : Option String) (slot : Option TypeId) (type : SchemaType) :
    lowerType facts' record array name slot type = lowerType facts record array name slot type := by
  cases type <;> simp only [lowerType, h.scalarName?]

theorem lowerTypes_eq {facts facts' : SchemaFacts} (h : facts.NullAdded facts')
    (record : Option String → Option TypeId → Lowering TypeId) (array : Option TypeId → Lowering TypeId)
    (hasProperties : Bool) (name : Option String) (slot : Option TypeId) :
    lowerTypes facts' record array hasProperties name slot =
      lowerTypes facts record array hasProperties name slot := by
  unfold lowerTypes
  simp only [h.types.declared, lowerType_eq h]

theorem findSome?_path?_eq {kept : Schema → Schema → Prop} {members members' : List Schema}
    (h : List.Forall₂ (Schema.NullAdded kept) members members') :
    members'.findSome? (·.path?) = members.findSome? (·.path?) := by
  induction h with
  | nil => rfl
  | cons hfirst _ ih => rw [List.findSome?_cons, List.findSome?_cons, hfirst.path?, ih]

mutual

private theorem lower_eq (hc : c.NullAdded (c.Keeps c') c')
    (hexpand : ∀ name slot schema schema', schema.NullAdded (c.Keeps c') schema' →
      expand' name slot schema' = expand name slot schema)
    (schema : Schema) {schema' : Schema} (h : schema.NullAdded (c.Keeps c') schema')
    (name : Option String) (slot : Option TypeId) :
    lower c' expand' name slot schema' = lower c expand name slot schema := by
  -- A composition of one member may stand for that member, one of several is a record of its own.
  match schema, h with
  | .reference path, .reference _ =>
    unfold lower
    exact lowerReference_eq hc hexpand path
  | .object facts [] oneOf anyOf properties items, .object hfacts .nil honeOf hanyOf hkept hnames
      hproperties hitems =>
    have hown := lowerProperties_eq hc hexpand properties hnames hproperties
    have helement := lowerItems_eq hc hexpand items hitems
    have hone := lowerAlternatives_eq hc hexpand oneOf honeOf hkept.1
    have hany := lowerAlternatives_eq hc hexpand anyOf hanyOf hkept.2
    unfold lower
    simp only [hown, helement, hone, hany, isEmpty_of_names hnames, isEmpty_of_forall₂ honeOf,
      isEmpty_of_forall₂ hanyOf, hfacts.enumValues, hfacts.constValue, lowerTypes_eq hfacts]
  | .object facts [only] oneOf anyOf properties items, .object _ (.cons honly .nil) _ _ _ hnames
      hproperties _ =>
    have hown := lowerProperties_eq hc hexpand properties hnames hproperties
    have hsame := lower_eq hc hexpand only honly none none
    have hmembers (hasBase : Bool) := lowerMembers_eq hc hexpand [only] (.cons honly .nil) hasBase
    have hbase := findSome?_path?_eq (.cons honly .nil)
    have hreference := funext fun path => lowerReference_eq hc hexpand path
    unfold lower
    rw [isEmpty_of_names hnames]
    cases properties.isEmpty with
    | true => simp only [hsame]
    | false => simp only [hown, hmembers, hbase, hreference]
  | .object facts (member :: member' :: members) oneOf anyOf properties items,
      .object _ (.cons hfirst (.cons hsecond hrest)) _ _ _ hnames hproperties _ =>
    have hown := lowerProperties_eq hc hexpand properties hnames hproperties
    have hall := List.Forall₂.cons hfirst (.cons hsecond hrest)
    have hmembers (hasBase : Bool) :=
      lowerMembers_eq hc hexpand (member :: member' :: members) hall hasBase
    have hbase := findSome?_path?_eq hall
    have hreference := funext fun path => lowerReference_eq hc hexpand path
    unfold lower
    simp only [hown, hmembers, hbase, hreference]
termination_by sizeOf schema

private theorem lowerItems_eq (hc : c.NullAdded (c.Keeps c') c')
    (hexpand : ∀ name slot schema schema', schema.NullAdded (c.Keeps c') schema' →
      expand' name slot schema' = expand name slot schema)
    (items : Items Schema) {items' : Items Schema}
    (h : Items.Related (Schema.NullAdded (c.Keeps c')) items items') :
    lowerItems c' expand' items' = lowerItems c expand items := by
  match items, h with
  | .absent, .absent => rfl
  | .boolean, .boolean => rfl
  | .schema schema, .schema hschema => exact lower_eq hc hexpand schema hschema none none
termination_by sizeOf items

private theorem lowerMembers_eq (hc : c.NullAdded (c.Keeps c') c')
    (hexpand : ∀ name slot schema schema', schema.NullAdded (c.Keeps c') schema' →
      expand' name slot schema' = expand name slot schema)
    (members : List Schema) {members' : List Schema}
    (h : List.Forall₂ (Schema.NullAdded (c.Keeps c')) members members') (hasBase : Bool) :
    lowerMembers c' expand' hasBase members' = lowerMembers c expand hasBase members := by
  match members, h with
  | [], .nil => rfl
  | member :: members, .cons hfirst hrest =>
    have hrests (hasBase : Bool) := lowerMembers_eq hc hexpand members hrest hasBase
    unfold lowerMembers
    simp only [hfirst.path?, lower_eq hc hexpand member hfirst none none, hrests]
termination_by sizeOf members

private theorem lowerAlternatives_eq (hc : c.NullAdded (c.Keeps c') c')
    (hexpand : ∀ name slot schema schema', schema.NullAdded (c.Keeps c') schema' →
      expand' name slot schema' = expand name slot schema)
    (alternatives : List Schema) {alternatives' : List Schema}
    (h : List.Forall₂ (Schema.NullAdded (c.Keeps c')) alternatives alternatives')
    (hkept : List.Forall₂ (c.Keeps c') alternatives alternatives') :
    lowerAlternatives c' expand' alternatives' = lowerAlternatives c expand alternatives := by
  match alternatives, h, hkept with
  | [], .nil, _ => rfl
  | alternative :: alternatives, .cons hfirst hrest, .cons hkeeps hkept =>
    unfold lowerAlternatives
    simp only [isNullAlternative_eq hc hfirst hkeeps, lower_eq hc hexpand alternative hfirst none none,
      lowerAlternatives_eq hc hexpand alternatives hrest hkept]
termination_by sizeOf alternatives

private theorem lowerProperties_eq (hc : c.NullAdded (c.Keeps c') c')
    (hexpand : ∀ name slot schema schema', schema.NullAdded (c.Keeps c') schema' →
      expand' name slot schema' = expand name slot schema)
    (properties : List (String × Schema)) {properties' : List (String × Schema)}
    (hnames : properties'.map Prod.fst = properties.map Prod.fst)
    (h : List.Forall₂ (Schema.NullAdded (c.Keeps c')) (properties.map Prod.snd)
      (properties'.map Prod.snd)) :
    lowerProperties c' expand' properties' = lowerProperties c expand properties := by
  match properties, properties', hnames, h with
  | [], [], _, _ => rfl
  | (name, schema) :: properties, (name', schema') :: properties', hnames, h =>
    obtain ⟨hname, hothers⟩ : name' = name ∧ properties'.map Prod.fst = properties.map Prod.fst := by
      simpa using hnames
    obtain ⟨hfirst, hrest⟩ := List.forall₂_cons.1 h
    subst hname
    unfold lowerProperties
    simp only [lower_eq hc hexpand schema hfirst none none,
      lowerProperties_eq hc hexpand properties hothers hrest]
termination_by sizeOf properties

end

theorem expandComponent_eq (hc : c.NullAdded (c.Keeps c') c') (fuel : Nat) (name : String)
    (slot : TypeId) (h : schema.NullAdded (c.Keeps c') schema') :
    expandComponent c' fuel name slot schema' = expandComponent c fuel name slot schema := by
  induction fuel generalizing name slot schema schema' with
  | zero => rfl
  | succ fuel ih =>
    exact lower_eq hc (fun name slot schema schema' h => ih name slot h) schema h (some name) (some slot)

/-- Null that is added to single types changes nothing in how a schema is lowered. -/
theorem lowerSchema_eq (hc : c.NullAdded (c.Keeps c') c') (h : schema.NullAdded (c.Keeps c') schema') :
    lowerSchema c' schema' = lowerSchema c schema := by
  have hlength : c'.schemas.length = c.schemas.length := hc.schemas.length_eq.symm
  unfold lowerSchema
  rw [hlength]
  exact lower_eq hc (fun name slot _ _ h => expandComponent_eq hc _ name slot h) schema h none none

end Lowering

theorem ApiComponents.keeps_of_properties
    (h : (c.resolveSchema schema).toOption.map (·.map (·.properties.isEmpty)) = some (some false)) :
    c.Keeps c' schema schema' := by
  intro target target' htarget _ _ hbare
  rw [htarget] at h
  simp [Except.toOption, hbare] at h

theorem ApiComponents.NullAdded.resolveBody {kept : Schema → Schema → Prop} (hc : c.NullAdded kept c')
    {body body' : OrReference ApiBody} (h : body.Related (ApiBody.NullAdded kept) body') :
    OutcomesRelated (ApiBody.NullAdded kept) (c.resolveBody body) (c'.resolveBody body') := by
  have hlength : c'.requestBodies.length = c.requestBodies.length := hc.requestBodies.length_eq.symm
  have hpath : ∀ value value' : OrReference ApiBody, value.Related (ApiBody.NullAdded kept) value' →
      value'.path? = value.path? := by
    intro value value' hrelated
    cases hrelated <;> rfl
  unfold ApiComponents.resolveBody
  rw [hlength]
  have houtcomes : OutcomesRelated _
      (resolveIn "requestBodies" OrReference.path? c.requestBodies (c.requestBodies.length + 1) body)
      (resolveIn "requestBodies" OrReference.path? c'.requestBodies (c.requestBodies.length + 1) body') :=
    resolveIn_related hpath hc.requestBodies _ h
  generalize resolveIn "requestBodies" OrReference.path? c.requestBodies _ body = outcome at houtcomes ⊢
  generalize resolveIn "requestBodies" OrReference.path? c'.requestBodies _ body' = outcome'
    at houtcomes ⊢
  cases houtcomes with
  | fault f => exact .fault f
  | value htargets =>
    cases htargets with
    | none => exact .value .none
    | some htarget =>
      cases htarget with
      | reference path => exact .value .none
      | object hbody => exact .value (.some hbody)

theorem collectParameters_eq {kept : Schema → Schema → Prop} (hc : c.NullAdded kept c') (path : String)
    (shared own : List (OrReference ApiParameter)) :
    collectParameters c' path shared own = collectParameters c path shared own := by
  have hresolve (parameter : OrReference ApiParameter) :
      c'.resolveParameter parameter = c.resolveParameter parameter := by
    unfold ApiComponents.resolveParameter
    rw [hc.parameters]
  simp only [collectParameters, resolveParameters, funext hresolve]

theorem isBinary_eq {kept : Schema → Schema → Prop} {schema? schema?' : Option Schema}
    (h : Option.Rel (Schema.NullAdded kept) schema? schema?') : isBinary schema?' = isBinary schema? := by
  cases h with
  | none => rfl
  | some hschema =>
    cases hschema with
    | reference path => rfl
    | object hfacts => simp only [isBinary, hfacts.format]

theorem bodyKind_eq {kept : Schema → Schema → Prop} (contentType : String)
    {schema? schema?' : Option Schema} (h : Option.Rel (Schema.NullAdded kept) schema? schema?') :
    bodyKind contentType schema?' = bodyKind contentType schema? := by
  unfold bodyKind
  rw [isBinary_eq h]

theorem lowerBodySchema_eq (hc : c.NullAdded (c.Keeps c') c') {schema? schema?' : Option Schema}
    (h : Option.Rel (Schema.NullAdded (c.Keeps c')) schema? schema?') :
    lowerBodySchema c' schema?' = lowerBodySchema c schema? := by
  cases h with
  | none => rfl
  | some hschema => exact Lowering.lowerSchema_eq hc hschema

theorem describeBody_eq (hc : c.NullAdded (c.Keeps c') c') {op op' : ApiOperation}
    (h : op.NullAdded (c.Keeps c') op') : describeBody c' op' = describeBody c op := by
  have hbody := h.requestBody
  unfold describeBody
  generalize op.requestBody = body? at hbody ⊢
  generalize op'.requestBody = body?' at hbody ⊢
  cases hbody with
  | none => rfl
  | @some body body' hbody =>
    have houtcomes := hc.resolveBody hbody
    simp only
    generalize c.resolveBody body = outcome at houtcomes ⊢
    generalize c'.resolveBody body' = outcome' at houtcomes ⊢
    cases houtcomes with
    | fault f => simp only [Lowering.liftFault_error_bind]
    | value htargets =>
      cases htargets with
      | none => simp only [Lowering.liftFault_ok_bind]
      | @some target target' htarget =>
        obtain ⟨content⟩ := target
        obtain ⟨content'⟩ := target'
        have hkeys := EntriesRelated.keys htarget
        cases htarget with
        | nil => simp only [Lowering.liftFault_ok_bind]
        | @cons entry entry' entries entries' hfirst hrest =>
          obtain ⟨contentType, schema?⟩ := entry
          obtain ⟨contentType', schema?'⟩ := entry'
          obtain ⟨htype, hschema⟩ := hfirst
          obtain rfl : contentType' = contentType := htype
          simp only [Lowering.liftFault_ok_bind, lowerBodySchema_eq hc hschema, hkeys,
            bodyKind_eq contentType' hschema]

namespace Api

variable {api api' : Api}

theorem NullAdded.sharedParameters (h : api.NullAdded api') (path : String) :
    api'.sharedParameters path = api.sharedParameters path := by
  have hlookup := h.paths.lookup path
  unfold Api.sharedParameters
  generalize api.paths.lookup path = item? at hlookup ⊢
  generalize api'.paths.lookup path = item?' at hlookup ⊢
  cases hlookup with
  | none => rfl
  | some hitem => simp only [Option.map_some, Option.getD_some, hitem.parameters]

theorem NullAdded.describeOperation [Spelling]
    (h : api.NullAdded api') (path verb : String) {op op' : ApiOperation}
    (hop : op.NullAdded (api.components.Keeps api'.components) op') :
    OpenApi.describeOperation api' path verb op' = OpenApi.describeOperation api path verb op := by
  simp only [OpenApi.describeOperation, collectParameters_eq h.components, h.sharedParameters,
    hop.parameters, describeBody_eq h.components hop, operationName, operationGroup, hop.operationId,
    hop.tags, h.security]

theorem NullAdded.operations (h : api.NullAdded api') :
    List.Forall₂ (fun entry entry' => entry'.1 = entry.1 ∧ entry'.2.1 = entry.2.1 ∧
      entry.2.2.NullAdded (api.components.Keeps api'.components) entry'.2.2)
        api.operations api'.operations := by
  refine List.rel_flatMap h.paths fun item item' hitem => ?_
  refine List.rel_map (fun entry entry' hentry => ?_) hitem.2.operations
  exact ⟨hitem.1, hentry⟩

theorem NullAdded.describeOperations [Spelling] (h : api.NullAdded api') :
    OpenApi.describeOperations api' = OpenApi.describeOperations api := by
  have hoperations := h.operations
  unfold OpenApi.describeOperations
  generalize api.operations = entries at hoperations ⊢
  generalize api'.operations = entries' at hoperations ⊢
  induction hoperations with
  | nil => rfl
  | @cons entry entry' entries entries' hfirst _ ih =>
    obtain ⟨path, verb, op⟩ := entry
    obtain ⟨path', verb', op'⟩ := entry'
    obtain ⟨hpath, hverb, hop⟩ := hfirst
    obtain rfl : path' = path := hpath
    obtain rfl : verb' = verb := hverb
    have hsame : OpenApi.describeOperation api' path' verb' op' =
        OpenApi.describeOperation api path' verb' op := h.describeOperation path' verb' hop
    rw [List.mapM_cons, List.mapM_cons, ih]
    simp only [hsame]

/-- Null beside another type changes nothing in the services and types that a description stands for. -/
theorem source_eq_of_nullAdded [Spelling] (h : api.NullAdded api') : api'.source = api.source := by
  simp only [Api.source, h.describeOperations, h.title, h.security]

end Api

def Schema.ofTypes (types : TypeSet) (properties : List (String × Schema)) : Schema :=
  .object ⟨types, none, [], none⟩ [] [] [] properties .absent

/-- A body that is a pet, a component with a name, or something else, with the types of each. -/
def petOr (pet name other : TypeSet) : Api where
  title := "Pets"
  security := []
  paths := [("/pets", ⟨[("POST", ⟨none, [], [], some (.object ⟨[("application/json",
    some (.object ⟨.absent, none, [], none⟩ []
      [.reference "#/components/schemas/Pet", .ofTypes other []] [] [] .absent))]⟩)⟩)], []⟩)]
  components := ⟨[("Pet", .ofTypes pet [("name", .ofTypes name [])])], [], []⟩

theorem Schema.nullAdded_ofTypes {kept : Schema → Schema → Prop} {types types' : TypeSet}
    (h : types.NullAdded types') {properties properties' : List (String × Schema)}
    (hnames : properties'.map Prod.fst = properties.map Prod.fst)
    (hproperties : List.Forall₂ (Schema.NullAdded kept) (properties.map Prod.snd)
      (properties'.map Prod.snd)) :
    (Schema.ofTypes types properties).NullAdded kept (Schema.ofTypes types' properties') :=
  .object ⟨h, rfl, rfl, rfl⟩ .nil .nil .nil ⟨.nil, .nil⟩ hnames hproperties .absent

attribute [local instance] Spelling.plain

theorem petOr_source_eq :
    let one (type : SchemaType) := TypeSet.ofJson (.string type.name)
    let orNull (type : SchemaType) :=
      TypeSet.ofJson (.array [.string type.name, .string SchemaType.null.name])
    (petOr (one .object) (one .string) (one .string)).NullAdded
      (petOr (orNull .object) (orNull .string) (orNull .string)) ∧
    (petOr (orNull .object) (orNull .string) (orNull .string)).source =
      (petOr (one .object) (one .string) (one .string)).source := by
  intro one orNull
  have htext (kept : Schema → Schema → Prop) :
      (Schema.ofTypes (one .string) []).NullAdded kept (Schema.ofTypes (orNull .string) []) :=
    Schema.nullAdded_ofTypes (TypeSet.nullAdded_ofJson (by decide)) rfl .nil
  have hpet (kept : Schema → Schema → Prop) :
      (Schema.ofTypes (one .object) [("name", .ofTypes (one .string) [])]).NullAdded kept
        (Schema.ofTypes (orNull .object) [("name", .ofTypes (orNull .string) [])]) :=
    Schema.nullAdded_ofTypes (TypeSet.nullAdded_ofJson (by decide)) rfl (.cons (htext kept) .nil)
  have hproperties : ((petOr (one .object) (one .string) (one .string)).components.resolveSchema
      (.reference "#/components/schemas/Pet")).toOption.map (·.map (·.properties.isEmpty)) =
        some (some false) := by
    decide +kernel
  have hrelated : (petOr (one .object) (one .string) (one .string)).NullAdded
      (petOr (orNull .object) (orNull .string) (orNull .string)) := by
    refine ⟨rfl, rfl, .cons ⟨rfl, .cons ⟨rfl, rfl, rfl, rfl, .some (.object (.cons ⟨rfl, .some ?_⟩ .nil))⟩
      .nil, rfl⟩ .nil, ⟨.cons ⟨rfl, hpet _⟩ .nil, rfl, .nil⟩⟩
    refine .object ⟨.same _, rfl, rfl, rfl⟩ .nil (.cons (.reference _) (.cons (htext _) .nil)) .nil
      ⟨.cons (ApiComponents.keeps_of_properties hproperties) (.cons ?_ .nil), .nil⟩ rfl .nil .absent
    -- A text is no object.
    intro target target' htarget _ hobject
    cases htarget
    have htypes : one .string ≠ .single .object := by decide +kernel
    exact absurd hobject htypes
  exact ⟨hrelated, Api.source_eq_of_nullAdded hrelated⟩

/-- A pet or an object without properties: null beside the object leaves only the pet. -/
theorem petOr_object_source_ne :
    (petOr (.single .object) (.single .string) (.multiple [.object, .null])).source ≠
      (petOr (.single .object) (.single .string) (.single .object)).source := by
  intro hsame
  have hsizes : ((petOr (.single .object) (.single .string)
      (.multiple [.object, .null])).source.toOption.map (·.types.size)) ≠
        ((petOr (.single .object) (.single .string) (.single .object)).source.toOption.map
          (·.types.size)) := by
    decide +kernel
  exact hsizes (by rw [hsame])

end RequestDocs.OpenApi
