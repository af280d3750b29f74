import Mathlib.Logic.Relation
import RequestDocs.Proofs.Lowerings
import RequestDocs.Proofs.References
/-!
# Components that lead to one another

The references that lowering follows from one component to the next, and the schemas that have the
type of a component instead of one of their own.
-/

namespace RequestDocs.OpenApi

/-- The paths that lowering a schema follows. Alternatives that only add null are left out. -/
inductive Follows (c : ApiComponents) : Schema → String → Prop
  | reference {path} : Follows c (.reference path) path
  | part {schema part path} : part ∈ (schema.shape c).parts → Follows c part path →
      Follows c schema path

/-- A schema that has the type of a component: a reference, or a schema that is the same. -/
inductive Denotes (c : ApiComponents) : Schema → String → Prop
  | reference {path name} : Reference.localName? path = .ok (some name) →
      Denotes c (.reference path) name
  | sameAs {schema target name} : schema.shape c = .sameAs target → Denotes c target name →
      Denotes c schema name

def Task.schemas : Task → List Schema
  | schema _ _ only => [only]
  | each schemas => schemas
  | members schemas => schemas

def Task.Follows (c : ApiComponents) (t : Task) (path : String) : Prop :=
  ∃ schema ∈ t.schemas, OpenApi.Follows c schema path

namespace ApiComponents

def Names (c : ApiComponents) (name : String) (schema : Schema) : Prop :=
  ∃ path, Reference.localName? path = .ok (some name) ∧
    c.resolveSchema (.reference path) = .ok (some schema)

/-- The schema of one component refers to the other. -/
def Leads (c : ApiComponents) (name name' : String) : Prop :=
  ∃ schema path, c.Names name schema ∧ Follows c schema path ∧
    Reference.localName? path = .ok (some name')

variable {c : ApiComponents} {name : String} {schema schema' : Schema}

theorem Names.unique (h : c.Names name schema) (h' : c.Names name schema') : schema = schema' := by
  obtain ⟨path, hname, hresolve⟩ := h
  obtain ⟨path', hname', hresolve'⟩ := h'
  obtain ⟨first, hfirst, htarget⟩ := lookup_of_resolveSchema hname hresolve
  obtain ⟨first', hfirst', htarget'⟩ := lookup_of_resolveSchema hname' hresolve'
  rw [hfirst] at hfirst'
  cases hfirst'
  rw [htarget] at htarget'
  cases htarget'
  rfl

theorem Names.resolve (h : c.Names name schema) {path : String}
    (hkind : Reference.PointsToSchema path) (hname : Reference.localName? path = .ok (some name)) :
    c.resolveSchema (.reference path) = .ok (some schema) := by
  obtain ⟨_, hname', hresolve⟩ := h
  obtain ⟨_, hfirst, htarget⟩ := lookup_of_resolveSchema hname' hresolve
  obtain ⟨reference, hparse, rfl⟩ := Reference.parse_of_localName hname
  rw [resolveSchema_reference hparse, if_pos (hkind reference (Reference.parse_ok hparse)), hfirst]
  exact htarget

theorem Names.path? (h : c.Names name schema) : schema.path? = none := by
  obtain ⟨_, _, hresolve⟩ := h
  exact (resolveIn_ok hresolve).1

end ApiComponents

def LoweringState.SlotOf (s : LoweringState) (name : String) (id : TypeId) : Prop :=
  s.components.lookup name = some id

variable {c : ApiComponents} {t t' : Task} {o : Outcome} {s s' : LoweringState}

theorem Task.Follows.of_parts {name : Option String} {slot : Option TypeId}
    {schema : Schema} {path : String} (h : t'.Follows c path)
    (hparts : t'.schemas ⊆ (schema.shape c).parts) :
    (Task.schema name slot schema).Follows c path := by
  obtain ⟨part, hmem, hfollows⟩ := h
  exact ⟨schema, List.mem_cons_self, .part (hparts hmem) hfollows⟩

theorem Task.Follows.mono {path : String} (h : t'.Follows c path) (hsub : t'.schemas ⊆ t.schemas) :
    t.Follows c path := by
  obtain ⟨schema, hmem, hfollows⟩ := h
  exact ⟨schema, hsub hmem, hfollows⟩

theorem Lowers.lookup_of_denotes {schema : Schema} {name : Option String} {component : String}
    {id : TypeId} (h : Lowers c (.schema name none schema) s (.type id) s')
    (hdenotes : Denotes c schema component) : s'.components.lookup component = some id := by
  induction hdenotes generalizing name s with
  | reference hname =>
    obtain ⟨_, heq, hlookup⟩ := h.lookup_reference hname
    cases heq
    exact hlookup
  | sameAs hshape _ ih =>
    obtain ⟨_, _, hrun, heq, rfl⟩ := h.comesTo hshape
    cases heq
    exact ih hrun

theorem exists_part_of_follows {schema : Schema} {shape : Shape} {path : String}
    (h : Follows c schema path) (hshape : schema.shape c = shape)
    (hne : ∀ path, shape ≠ .reference path) : ∃ part ∈ shape.parts, Follows c part path := by
  cases h with
  | reference => exact absurd hshape.symm (hne path)
  | part hmem hfollows => exact ⟨_, hshape ▸ hmem, hfollows⟩

theorem Follows.eq_of_reference {path path' : String} (h : Follows c (.reference path) path') :
    path' = path := by
  cases h with
  | reference => rfl
  | part hmem => cases hmem

theorem Follows.mem_references {schema : Schema} {path : String} (h : Follows c schema path) :
    path ∈ schema.references := by
  induction h with
  | reference => exact List.mem_cons_self
  | part hmem _ ih => exact Schema.references_of_mem_parts hmem ih

def Task.Regular (c : ApiComponents) (t : Task) : Prop :=
  ∀ path, t.Follows c path → Reference.PointsToSchema path

namespace Task.Regular

theorem part {name : Option String} {slot : Option TypeId} {schema : Schema}
    (h : (Task.schema name slot schema).Regular c) (hparts : t'.schemas ⊆ (schema.shape c).parts) :
    t'.Regular c := fun path hfollows => h path (hfollows.of_parts hparts)

theorem mono (h : t.Regular c) (hsub : t'.schemas ⊆ t.schemas) : t'.Regular c :=
  fun path hfollows => h path (hfollows.mono hsub)

theorem of_references {name : Option String} {slot : Option TypeId} {schema : Schema}
    (h : ∀ path ∈ schema.references, Reference.PointsToSchema path) :
    (Task.schema name slot schema).Regular c := by
  rintro path ⟨schema', hmem, hfollows⟩
  obtain rfl := List.mem_singleton.1 hmem
  exact h path hfollows.mem_references

theorem of_resolve (hc : ∀ path ∈ c.schemaReferences, Reference.PointsToSchema path)
    {name : Option String} {slot : Option TypeId} {path : String} {target : Schema}
    (hresolve : c.resolveSchema (.reference path) = .ok (some target)) :
    (Task.schema name slot target).Regular c :=
  .of_references fun path hmem => hc path (ApiComponents.references_of_resolveSchema hresolve hmem)

theorem reference {name : Option String} {slot : Option TypeId} {path : String}
    (h : (Task.schema name slot (.reference path)).Regular c) : Reference.PointsToSchema path :=
  h path ⟨_, List.mem_cons_self, .reference⟩

end Task.Regular

theorem Lowers.lookup_old (h : Lowers c t s o s') {name : String} {id : TypeId}
    (hlookup : s'.components.lookup name = some id) (hid : s.Has id) :
    s.components.lookup name = some id := by
  have henter {s : LoweringState} {component : String} (hid : s.Has id)
      (h : ((component, s.next) :: s.components).lookup name = some id) :
      s.components.lookup name = some id := by
    rcases LoweringState.lookup_enter h with ⟨_, rfl⟩ | ⟨_, h⟩
    · exact absurd rfl (LoweringState.ne_next_of_has hid)
    · exact h
  induction h with
  | external | known | leaf | openArray => simpa using hlookup
  | unresolved => exact henter hid hlookup
  | entered _ hnew _ _ ih =>
    exact henter hid (ih hlookup ((LoweringState.Extends.enter hnew _).has hid))
  | through _ _ ih | ownSlot _ _ ih => exact ih hlookup hid
  | copy _ _ _ _ ih | union _ _ ih | array _ _ ih => exact ih (by simpa using hlookup) hid
  | reserve _ _ ih => exact ih hlookup ((LoweringState.Extends.push _ _).has hid)
  | record _ h₁ h₂ _ _ ih₁ ih₂ ih₃ =>
    have hid₁ := h₁.extends.has hid
    exact ih₁ (ih₂ (ih₃ hlookup (h₂.extends.has hid₁)) hid₁) hid
  | eachNil | membersNil => exact hlookup
  | eachCons h₁ _ ih₁ ih₂ | membersCons h₁ _ _ ih₁ ih₂ =>
    exact ih₁ (ih₂ hlookup (h₁.extends.has hid)) hid

end RequestDocs.OpenApi
