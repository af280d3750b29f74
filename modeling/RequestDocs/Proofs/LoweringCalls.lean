import RequestDocs.Proofs.Following
import RequestDocs.Proofs.Sources
/-!
# Calls of lowering

Lowering as a walk through the tasks that it comes to: what each task is made of, and the stages
that the lowering of an API passes, one before the other.
-/

namespace RequestDocs.OpenApi

open Relation (ReflTransGen)

/-- Tasks to be done in turn, and the state in which the first of them starts. -/
structure Stage where
  tasks : List Task
  state : LoweringState

/-- What is done for a reference: its component is entered, unless it has an id already, and then
its schema is lowered. -/
def ApiComponents.expansion (c : ApiComponents) (path : String) (s : LoweringState) : Stage :=
  match Reference.localName? path with
  | .ok (some component) =>
    match s.components.lookup component with
    | some _ => ⟨[], s⟩
    | none =>
      let tasks : List Task := match c.resolveSchema (.reference path) with
        | .ok (some target) => [.schema (some component) (some s.next) target]
        | _ => []
      ⟨tasks, s.enter component path⟩
  | _ => ⟨[], s⟩

def ApiComponents.opened (c : ApiComponents) (name : Option String) (slot : Option TypeId)
    (schema : Schema) (s : LoweringState) : Shape → Stage
  | .reference path => c.expansion path s
  | .leaf _ | .openArray _ => ⟨[], s⟩
  | .sameAs target => ⟨[.schema none none target], s⟩
  | .union variants => ⟨[.each variants], s⟩
  | .array element => ⟨[.schema none none element], s⟩
  | .record base members properties =>
    match slot with
    | none => ⟨[.schema name (some s.next) schema], s.push .pending⟩
    | some _ => ⟨[.each base.toList, .members members, .each (properties.map (·.2))], s⟩

def ApiComponents.within (c : ApiComponents) (t : Task) (s : LoweringState) : Stage :=
  match t with
  | .schema name slot schema => c.opened name slot schema s (schema.shape c)
  | .each (schema :: schemas) => ⟨[.schema none none schema, .each schemas], s⟩
  | .members (member :: members) => ⟨[.schema none none member, .members members], s⟩
  | .each [] | .members [] => ⟨[], s⟩

/-- From one stage to another: into the first task, or past it. -/
inductive Stage.Step (c : ApiComponents) : Stage → Stage → Prop
  | into {t tasks s} : Step c ⟨t :: tasks, s⟩ (c.within t s)
  | past {t tasks s o s'} : Lowers c t s o s' → Step c ⟨t :: tasks, s⟩ ⟨tasks, s'⟩

/-- The tasks of a stage are done, and lead to a state. -/
inductive Stage.Finishes (c : ApiComponents) : Stage → LoweringState → Prop
  | nil {s} : Finishes c ⟨[], s⟩ s
  | cons {t tasks s o s₁ s'} : Lowers c t s o s₁ → Finishes c ⟨tasks, s₁⟩ s' →
      Finishes c ⟨t :: tasks, s⟩ s'

variable {c : ApiComponents} {t : Task} {o o' : Outcome} {s s' s'' : LoweringState}

private theorem eq_zipWith (fields : List Field) :
    fields = List.zipWith Field.mk (fields.map (·.name)) (fields.map (·.type)) := by
  induction fields with
  | nil => rfl
  | cons field fields ih => exact congrArg (field :: ·) ih

/-- From a state, a task comes to one outcome and one state. -/
theorem Lowers.unique (h : Lowers c t s o s') (h' : Lowers c t s o' s'') : o = o' ∧ s' = s'' := by
  induction h generalizing o' s'' with
  | external hname =>
    obtain ⟨rfl, rfl⟩ := h'.of_external hname
    exact ⟨rfl, rfl⟩
  | known hname hid =>
    obtain ⟨rfl, rfl⟩ := h'.of_known hname hid
    exact ⟨rfl, rfl⟩
  | unresolved hname hnew hresolve =>
    obtain ⟨rfl, rfl⟩ := h'.of_unresolved hname hnew hresolve
    exact ⟨rfl, rfl⟩
  | entered hname hnew hresolve _ ih => exact ih (h'.of_entered hname hnew hresolve).2
  | leaf hshape | openArray hshape =>
    obtain ⟨rfl, rfl⟩ := h'.comesTo hshape
    exact ⟨rfl, rfl⟩
  | through hshape _ ih =>
    obtain ⟨id, s₁, hrun, rfl, rfl⟩ := h'.comesTo hshape
    exact ih hrun
  | ownSlot hshape _ ih =>
    obtain ⟨id, s₁, hrun, rfl, hcases⟩ := h'.comesTo hshape
    obtain ⟨heq, rfl⟩ := ih hrun
    cases heq
    rcases hcases with ⟨-, rfl⟩ | ⟨hne, -⟩
    · exact ⟨rfl, rfl⟩
    · exact absurd rfl hne
  | copy hshape _ hne hnode ih =>
    obtain ⟨id, s₁, hrun, rfl, hcases⟩ := h'.comesTo hshape
    obtain ⟨heq, rfl⟩ := ih hrun
    cases heq
    rcases hcases with ⟨hsame, -⟩ | ⟨-, node, hnode', rfl⟩
    · exact absurd hsame hne
    · cases hnode.symm.trans hnode'
      exact ⟨rfl, rfl⟩
  | union hshape _ ih | array hshape _ ih =>
    obtain ⟨_, s₁, hrun, rfl, rfl⟩ := h'.comesTo hshape
    obtain ⟨heq, rfl⟩ := ih hrun
    cases heq
    exact ⟨rfl, rfl⟩
  | reserve hshape _ ih => exact ih (h'.comesTo hshape).2
  | @record _ _ _ _ _ _ _ _ _ _ _ own _ hshape _ _ _ hnames ih₁ ih₂ ih₃ =>
    obtain ⟨rfl, _, _, _, _, own', _, h₁, h₂, h₃, hnames', rfl⟩ := h'.comesTo hshape
    obtain ⟨hbases, rfl⟩ := ih₁ h₁
    obtain ⟨hcopied, rfl⟩ := ih₂ h₂
    obtain ⟨htypes, rfl⟩ := ih₃ h₃
    cases hbases
    cases hcopied
    rw [eq_zipWith own, eq_zipWith own', hnames, hnames', Outcome.types.inj htypes]
    exact ⟨rfl, rfl⟩
  | eachNil | membersNil =>
    cases h'
    exact ⟨rfl, rfl⟩
  | eachCons _ _ ih₁ ih₂ =>
    cases h' with
    | eachCons h₁ h₂ =>
      obtain ⟨hid, rfl⟩ := ih₁ h₁
      obtain ⟨hids, rfl⟩ := ih₂ h₂
      cases hid
      cases hids
      exact ⟨rfl, rfl⟩
  | membersCons _ hfields _ ih₁ ih₂ =>
    cases h' with
    | membersCons h₁ hfields' h₂ =>
      obtain ⟨hid, rfl⟩ := ih₁ h₁
      cases hid
      obtain ⟨hrest, rfl⟩ := ih₂ h₂
      cases hrest
      cases hfields.symm.trans hfields'
      exact ⟨rfl, rfl⟩

namespace ApiComponents

private theorem extends_expansion (c : ApiComponents) (path : String) (s : LoweringState) :
    s.Extends (c.expansion path s).state := by
  unfold expansion
  split
  · split
    · exact .refl s
    · next hnew => exact .enter hnew path
  · exact .refl s

private theorem extends_opened (c : ApiComponents) (name : Option String) (slot : Option TypeId)
    (schema : Schema) (s : LoweringState) (shape : Shape) :
    s.Extends (c.opened name slot schema s shape).state := by
  cases shape with
  | reference path => exact c.extends_expansion path s
  | leaf | openArray | sameAs | union | array => exact .refl s
  | record =>
    cases slot with
    | none => exact .push s .pending
    | some => exact .refl s

theorem extends_within (c : ApiComponents) (t : Task) (s : LoweringState) :
    s.Extends (c.within t s).state := by
  cases t with
  | schema name slot schema => exact c.extends_opened name slot schema s _
  | each schemas | members schemas => cases schemas <;> exact .refl s

end ApiComponents

namespace Stage

variable {k k' k₁ k₂ : Stage}

theorem Finishes.single (h : Lowers c t s o s') : Finishes c ⟨[t], s⟩ s' := .cons h .nil

theorem Finishes.within (h : Lowers c t s o s') : ∃ s₁, Finishes c (c.within t s) s₁ ∧
    s₁.Extends s' ∧ s'.components = s₁.components := by
  cases h with
  | external hname =>
    refine ⟨s, ?_, .push _ _, rfl⟩
    change Finishes c (c.expansion _ s) s
    simp only [ApiComponents.expansion, hname]
    exact .nil
  | known hname hid =>
    refine ⟨s, ?_, .refl _, rfl⟩
    change Finishes c (c.expansion _ s) s
    simp only [ApiComponents.expansion, hname, hid]
    exact .nil
  | unresolved hname hnew hresolve =>
    refine ⟨_, ?_, .put _ _ _, rfl⟩
    change Finishes c (c.expansion _ s) _
    simp only [ApiComponents.expansion, hname, hnew, hresolve]
    exact .nil
  | entered hname hnew hresolve h =>
    refine ⟨_, ?_, .refl _, rfl⟩
    change Finishes c (c.expansion _ s) _
    simp only [ApiComponents.expansion, hname, hnew, hresolve]
    exact .single h
  | leaf hshape =>
    refine ⟨s, ?_, .place _ _ _, by simp⟩
    simp only [ApiComponents.within, hshape, ApiComponents.opened]
    exact .nil
  | through hshape h | ownSlot hshape h | reserve hshape h =>
    refine ⟨_, ?_, .refl _, rfl⟩
    simp only [ApiComponents.within, hshape, ApiComponents.opened]
    exact .single h
  | copy hshape h =>
    refine ⟨_, ?_, .put _ _ _, rfl⟩
    simp only [ApiComponents.within, hshape, ApiComponents.opened]
    exact .single h
  | union hshape h | array hshape h =>
    refine ⟨_, ?_, .place _ _ _, by simp⟩
    simp only [ApiComponents.within, hshape, ApiComponents.opened]
    exact .single h
  | openArray hshape =>
    refine ⟨s, ?_, (LoweringState.Extends.push _ _).trans (.place _ _ _), by simp⟩
    simp only [ApiComponents.within, hshape, ApiComponents.opened]
    exact .nil
  | record hshape h₁ h₂ h₃ =>
    refine ⟨_, ?_, .put _ _ _, rfl⟩
    simp only [ApiComponents.within, hshape, ApiComponents.opened]
    exact .cons h₁ (.cons h₂ (.single h₃))
  | eachNil | membersNil => exact ⟨s, .nil, .refl s, rfl⟩
  | eachCons h₁ h₂ | membersCons h₁ _ h₂ =>
    exact ⟨s', .cons h₁ (.single h₂), .refl s', rfl⟩

theorem Finishes.extends (h : Finishes c k s) : k.state.Extends s := by
  induction h with
  | nil => exact .refl _
  | cons h _ ih => exact h.extends.trans ih

theorem Step.extends (h : Step c k k') : k.state.Extends k'.state := by
  cases h with
  | into => exact c.extends_within _ _
  | past h => exact h.extends

theorem extends_of_steps (h : ReflTransGen (Step c) k k') : k.state.Extends k'.state := by
  induction h with
  | refl => exact .refl _
  | tail _ h ih => exact ih.trans h.extends

theorem Finishes.steps (h : Finishes c k s) (hsteps : ReflTransGen (Step c) k k') :
    ∃ s', Finishes c k' s' ∧ s'.Extends s := by
  induction hsteps with
  | refl => exact ⟨s, h, .refl s⟩
  | tail _ hstep ih =>
    obtain ⟨s₂, h₂, hext⟩ := ih
    cases hstep with
    | into =>
      cases h₂ with
      | cons hrun h₃ =>
        obtain ⟨s₁, h₁, hext₁, -⟩ := Finishes.within hrun
        exact ⟨s₁, h₁, hext₁.trans (h₃.extends.trans hext)⟩
    | past hrun =>
      cases h₂ with
      | cons hrun' h₃ =>
        obtain ⟨-, rfl⟩ := hrun.unique hrun'
        exact ⟨s₂, h₃, hext⟩

/-- The other stage is on the way, or starts when the tasks of this one are done. -/
def Precedes (c : ApiComponents) (k k' : Stage) : Prop :=
  ReflTransGen (Step c) k k' ∨ ∃ s, Finishes c k s ∧ s.Extends k'.state

theorem Precedes.extends (h : Precedes c k k') : k.state.Extends k'.state := by
  obtain h | ⟨s, h, hext⟩ := h
  · exact extends_of_steps h
  · exact h.extends.trans hext

theorem precedes_or_precedes (h₁ : ReflTransGen (Step c) k k₁) (h₂ : ReflTransGen (Step c) k k₂) :
    Precedes c k₁ k₂ ∨ Precedes c k₂ k₁ := by
  -- What is inside a task is done before what comes past it.
  have hinside {t : Task} {s s' : LoweringState} {o : Outcome} {tasks : List Task} {k₁ k₂ : Stage}
      (hrun : Lowers c t s o s') (h₁ : ReflTransGen (Step c) (c.within t s) k₁)
      (h₂ : ReflTransGen (Step c) ⟨tasks, s'⟩ k₂) : Precedes c k₁ k₂ := by
    obtain ⟨s₁, hfinishes, hext, -⟩ := Finishes.within hrun
    obtain ⟨s₂, hfinishes₂, hext₂⟩ := hfinishes.steps h₁
    exact .inr ⟨s₂, hfinishes₂, (hext₂.trans hext).trans (extends_of_steps h₂)⟩
  induction h₁ using ReflTransGen.head_induction_on with
  | refl => exact .inl (.inl h₂)
  | head hstep hsteps ih =>
    obtain rfl | ⟨k', hstep', hsteps'⟩ := h₂.cases_head
    · exact .inr (.inl (.head hstep hsteps))
    cases hstep with
    | into =>
      cases hstep' with
      | into => exact ih hsteps'
      | past hrun => exact .inl (hinside hrun hsteps hsteps')
    | past hrun =>
      cases hstep' with
      | into => exact .inr (hinside hrun hsteps' hsteps)
      | past hrun' =>
        obtain ⟨-, rfl⟩ := hrun.unique hrun'
        exact ih hsteps'

end Stage

/-- The stages that the bodies of operations lead to. -/
inductive Visits (c : ApiComponents) : List ApiOperation → LoweringState → Stage → Prop
  | here {op ops s contentType schema rest k} :
      c.bodyOf op = .ok (some ⟨(contentType, some schema) :: rest⟩) →
      ReflTransGen (Stage.Step c) ⟨[.schema none none schema], s⟩ k → Visits c (op :: ops) s k
  | later {op ops s body s' k} : DescribesBody c op s body s' → Visits c ops s' k →
      Visits c (op :: ops) s k

variable {op : ApiOperation} {ops : List ApiOperation}

theorem DescribesBody.extends {body : Option Body} (h : DescribesBody c op s body s') :
    s.Extends s' := by
  cases h with
  | missing | empty => exact .refl s
  | unspecified => exact .push s _
  | schema _ hrun => exact hrun.extends

theorem DescribesBody.unique {body body' : Option Body} (h : DescribesBody c op s body s')
    (h' : DescribesBody c op s body' s'') : s' = s'' := by
  cases h with
  | missing hbody =>
    cases h' with
    | missing => rfl
    | empty hbody' | unspecified hbody' | schema hbody' => cases hbody.symm.trans hbody'
  | empty hbody =>
    cases h' with
    | empty => rfl
    | missing hbody' | unspecified hbody' | schema hbody' => cases hbody.symm.trans hbody'
  | unspecified hbody =>
    cases h' with
    | unspecified => rfl
    | missing hbody' | empty hbody' | schema hbody' => cases hbody.symm.trans hbody'
  | schema hbody hrun =>
    cases h' with
    | schema hbody' hrun' =>
      cases hbody.symm.trans hbody'
      exact (hrun.unique hrun').2
    | missing hbody' | empty hbody' | unspecified hbody' => cases hbody.symm.trans hbody'

variable {k k' : Stage}

theorem Visits.extends (h : Visits c ops s k) : s.Extends k.state := by
  induction h with
  | here _ hsteps => exact Stage.extends_of_steps hsteps
  | later hbody _ ih => exact hbody.extends.trans ih

namespace Visits

theorem steps (h : Visits c ops s k) (hsteps : ReflTransGen (Stage.Step c) k k') :
    Visits c ops s k' := by
  induction h with
  | here hbody hsteps' => exact .here hbody (hsteps'.trans hsteps)
  | later hbody _ ih => exact .later hbody (ih hsteps)

theorem precedes_or_precedes (h : Visits c ops s k) (h' : Visits c ops s k') :
    Stage.Precedes c k k' ∨ Stage.Precedes c k' k := by
  -- What comes of a body is done before what comes of later ones.
  have hbefore {op : ApiOperation} {ops : List ApiOperation} {s s' : LoweringState}
      {contentType : String} {schema : Schema} {rest : List (String × Option Schema)}
      {body : Option Body} {k k' : Stage}
      (hbody : c.bodyOf op = .ok (some ⟨(contentType, some schema) :: rest⟩))
      (hsteps : ReflTransGen (Stage.Step c) ⟨[.schema none none schema], s⟩ k)
      (hdone : DescribesBody c op s body s') (hvisits : Visits c ops s' k') :
      Stage.Precedes c k k' := by
    cases hdone with
    | missing hbody' | empty hbody' | unspecified hbody' => cases hbody.symm.trans hbody'
    | schema hbody' hrun =>
      cases hbody.symm.trans hbody'
      obtain ⟨s₁, hfinishes, hext⟩ := (Stage.Finishes.single hrun).steps hsteps
      exact .inr ⟨s₁, hfinishes, hext.trans hvisits.extends⟩
  induction h with
  | here hbody hsteps =>
    cases h' with
    | here hbody' hsteps' =>
      cases hbody.symm.trans hbody'
      exact Stage.precedes_or_precedes hsteps hsteps'
    | later hdone hvisits => exact .inl (hbefore hbody hsteps hdone hvisits)
  | later hdone hvisits ih =>
    cases h' with
    | here hbody hsteps => exact .inr (hbefore hbody hsteps hdone hvisits)
    | later hdone' hvisits' => exact ih (hdone.unique hdone' ▸ hvisits')

end Visits

end RequestDocs.OpenApi
