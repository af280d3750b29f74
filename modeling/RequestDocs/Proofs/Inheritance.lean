import RequestDocs.Proofs.Placeholders
/-!
# Inherited fields

The fields of a schema as its components give them, whatever has been lowered before: what a schema
stands for, the fields of its base and of the members it copies from, and when copies are complete.
-/

namespace RequestDocs.OpenApi

open Relation

variable {c : ApiComponents}

def ApiComponents.Missing (c : ApiComponents) (path : String) : Prop :=
  ∀ name schema, Reference.localName? path = .ok (some name) → ¬c.Names name schema

/-- The schema whose layer a schema has: itself, or what references and schemas that are the same
end in. -/
inductive Stands (c : ApiComponents) : Schema → Schema → Prop
  | missing {path} : c.Missing path → Stands c (.reference path) (.reference path)
  | component {path name schema final} : Reference.localName? path = .ok (some name) →
      c.Names name schema → Stands c schema final → Stands c (.reference path) final
  | sameAs {schema target final} : schema.shape c = .sameAs target → Stands c target final →
      Stands c schema final
  | own {schema} : schema.path? = none → (∀ target, schema.shape c ≠ .sameAs target) →
      Stands c schema schema

theorem Stands.unique {schema final final' : Schema} (h : Stands c schema final)
    (h' : Stands c schema final') : final = final' := by
  induction h with
  | missing hmissing =>
    cases h' with
    | missing => rfl
    | component hname hnames => exact absurd hnames (hmissing _ _ hname)
    | sameAs hshape => cases hshape
    | own hpath => cases hpath
  | component hname hnames _ ih =>
    cases h' with
    | missing hmissing => exact absurd hnames (hmissing _ _ hname)
    | component hname' hnames' h' =>
      cases hname.symm.trans hname'
      cases hnames.unique hnames'
      exact ih h'
    | sameAs hshape => cases hshape
    | own hpath => cases hpath
  | sameAs hshape _ ih =>
    cases h' with
    | missing | component => cases hshape
    | sameAs hshape' h' =>
      cases hshape.symm.trans hshape'
      exact ih h'
    | own _ hshape' => exact absurd hshape (hshape' _)
  | own hpath hshape =>
    cases h' with
    | missing | component => cases hpath
    | sameAs hshape' => exact absurd hshape' (hshape _)
    | own => rfl

theorem Denotes.unique {schema : Schema} {name name' : String} (h : Denotes c schema name)
    (h' : Denotes c schema name') : name = name' := by
  induction h with
  | reference hname =>
    cases h' with
    | reference hname' =>
      cases hname.symm.trans hname'
      rfl
    | sameAs hshape => cases hshape
  | sameAs hshape _ ih =>
    cases h' with
    | reference => cases hshape
    | sameAs hshape' h' =>
      cases hshape.symm.trans hshape'
      exact ih h'

theorem not_denotes_of_own {schema : Schema} (hpath : schema.path? = none)
    (hshape : ∀ target, schema.shape c ≠ .sameAs target) (name : String) :
    ¬Denotes c schema name := by
  intro h
  cases h with
  | reference => cases hpath
  | sameAs hshape' => exact hshape _ hshape'

theorem Keyed.unique {p : String → Prop} (hp : ∀ name name', p name → p name' → name = name')
    {name name' : Option String} (h : Keyed p name) (h' : Keyed p name') : name = name' := by
  cases name with
  | none =>
    cases name' with
    | none => rfl
    | some name' => exact absurd h' (h name')
  | some name =>
    cases name' with
    | none => exact absurd h (h' name)
    | some name' => rw [hp name name' h h']

/-- Fields that a schema has: in all, from its base and from members. Names that were met on the way
along bases are left out. -/
inductive FieldSource
  | all (seen : List String) (schema : Schema)
  | base (seen : List String) (base : Option Schema)
  | members (members : List Schema)

inductive Fields (c : ApiComponents) : FieldSource → List (String × Schema) → Prop
  | other {seen schema} :
      (∀ base members properties, schema.shape c ≠ .record base members properties) →
      Fields c (.all seen schema) []
  | record {seen schema base members properties inherited copied} :
      schema.shape c = .record base members properties → Fields c (.base seen base) inherited →
      Fields c (.members members) copied →
      Fields c (.all seen schema) (inherited ++ (copied ++ properties))
  | noBase {seen} : Fields c (.base seen none) []
  | external {seen path} : Reference.localName? path = .ok none →
      Fields c (.base seen (some (.reference path))) []
  | cycle {seen path name} : Reference.localName? path = .ok (some name) → name ∈ seen →
      Fields c (.base seen (some (.reference path))) []
  | base {seen path name final inherited} : Reference.localName? path = .ok (some name) →
      name ∉ seen → Stands c (.reference path) final → Fields c (.all (name :: seen) final) inherited →
      Fields c (.base seen (some (.reference path))) inherited
  | membersNil : Fields c (.members []) []
  | membersCons {member members name final inherited rest} : Keyed (Denotes c member) name →
      Stands c member final → Fields c (.all name.toList final) inherited →
      Fields c (.members members) rest → Fields c (.members (member :: members)) (inherited ++ rest)

theorem Fields.unique {source : FieldSource} {fields fields' : List (String × Schema)}
    (h : Fields c source fields) (h' : Fields c source fields') : fields = fields' := by
  induction h generalizing fields' with
  | other hshape =>
    cases h' with
    | other => rfl
    | record hshape' => exact absurd hshape' (hshape _ _ _)
  | record hshape _ _ ih₁ ih₂ =>
    cases h' with
    | other hshape' => exact absurd hshape (hshape' _ _ _)
    | record hshape' h₁ h₂ =>
      cases hshape.symm.trans hshape'
      rw [ih₁ h₁, ih₂ h₂]
  | noBase =>
    cases h' with
    | noBase => rfl
  | external hname =>
    cases h' with
    | external | cycle => rfl
    | base hname' => cases hname.symm.trans hname'
  | cycle hname hseen =>
    cases h' with
    | external | cycle => rfl
    | base hname' hseen' =>
      cases hname.symm.trans hname'
      exact absurd hseen hseen'
  | base hname hseen hstands _ ih =>
    cases h' with
    | external hname' => cases hname.symm.trans hname'
    | cycle hname' hseen' =>
      cases hname.symm.trans hname'
      exact absurd hseen' hseen
    | base hname' _ hstands' h' =>
      cases hname.symm.trans hname'
      cases hstands.unique hstands'
      exact ih h'
  | membersNil =>
    cases h' with
    | membersNil => rfl
  | membersCons hkey hstands _ _ ih₁ ih₂ =>
    cases h' with
    | membersCons hkey' hstands' h₁ h₂ =>
      cases hkey.unique (fun _ _ => Denotes.unique) hkey'
      cases hstands.unique hstands'
      rw [ih₁ h₁, ih₂ h₂]

def HasNoFields (c : ApiComponents) (schema : Schema) : Prop :=
  ∃ final, Stands c schema final ∧
    ∀ base members properties, final.shape c ≠ .record base members properties

/-- The components whose fields are the first to be looked up for the fields of a schema. -/
inductive Draws (c : ApiComponents) : Schema → String → Prop
  | reference {path name} : Reference.localName? path = .ok (some name) →
      ¬HasNoFields c (.reference path) → Draws c (.reference path) name
  | sameAs {schema target name} : schema.shape c = .sameAs target → Draws c target name →
      Draws c schema name
  | base {schema base members properties name} :
      schema.shape c = .record (some base) members properties → Draws c base name →
      Draws c schema name

theorem HasNoFields.sameAs {schema target : Schema} (h : HasNoFields c target)
    (hshape : schema.shape c = .sameAs target) : HasNoFields c schema := by
  obtain ⟨final, hstands, hfinal⟩ := h
  exact ⟨final, .sameAs hshape hstands, hfinal⟩

theorem Denotes.draws_or {schema : Schema} {name : String} (h : Denotes c schema name) :
    Draws c schema name ∨ HasNoFields c schema := by
  induction h with
  | @reference path _ hname =>
    by_cases hnone : HasNoFields c (.reference path)
    · exact .inr hnone
    · exact .inl (.reference hname hnone)
  | sameAs hshape _ ih => exact ih.imp (.sameAs hshape) fun h => h.sameAs hshape

theorem Draws.follows {schema : Schema} {name : String} (h : Draws c schema name) :
    ∃ path, Follows c schema path ∧ Reference.localName? path = .ok (some name) := by
  induction h with
  | reference hname => exact ⟨_, .reference, hname⟩
  | sameAs hshape _ ih | base hshape _ ih =>
    obtain ⟨path, hfollows, hname⟩ := ih
    exact ⟨path, .part (by simp [hshape, Shape.parts]) hfollows, hname⟩

/-- What a schema stands for draws from no component unless it is a record. -/
private theorem Stands.record_of_draws {schema final : Schema} {name : String}
    (h : Stands c schema final) (hdraws : Draws c final name) :
    ∃ base members properties, final.shape c = .record base members properties := by
  induction h with
  | missing hmissing =>
    cases hdraws with
    | reference _ hfields => exact absurd ⟨_, .missing hmissing, nofun⟩ hfields
    | sameAs hshape | base hshape => cases hshape
  | component _ _ _ ih | sameAs _ _ ih => exact ih hdraws
  | own hpath hshape =>
    cases hdraws with
    | reference => cases hpath
    | sameAs hshape' => exact absurd hshape' (hshape _)
    | base hshape' => exact ⟨_, _, _, hshape'⟩

theorem Stands.draws {p : String → Prop} (hp : ∀ name name', p name → c.Leads name name' → p name')
    {schema final : Schema} (h : Stands c schema final) (hschema : ∀ name, Draws c schema name → p name)
    (name : String) (hdraws : Draws c final name) : p name := by
  have hrecord := h.record_of_draws hdraws
  induction h with
  | missing | own => exact hschema name hdraws
  | component hname hnames hstands ih =>
    refine ih (fun name' hdraws' => ?_) hdraws hrecord
    obtain ⟨path', hfollows, hname'⟩ := hdraws'.follows
    refine hp _ _ (hschema _ (.reference hname ?_)) ⟨_, path', hnames, hfollows, hname'⟩
    rintro ⟨final', hstands', hfinal'⟩
    obtain rfl := hstands'.unique (.component hname hnames hstands)
    obtain ⟨base, members, properties, hshape⟩ := hrecord
    exact hfinal' base members properties hshape
  | sameAs hshape _ ih =>
    exact ih (fun name' hdraws' => hschema name' (.sameAs hshape hdraws')) hdraws hrecord

/-- No component is the same as one that leads to it, and none copies the fields of a record that
leads to it. -/
structure ApiComponents.CopiesApart (c : ApiComponents) : Prop where
  aliases : c.AliasesApart
  members : ∀ component schema base members properties, c.PartOf component schema →
    schema.shape c = .record base members properties → ∀ member ∈ members, ∀ name,
      Draws c member name → ¬ReflTransGen c.Leads name component

end RequestDocs.OpenApi
