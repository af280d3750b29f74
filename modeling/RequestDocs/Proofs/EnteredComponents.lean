import RequestDocs.Proofs.LoweringCalls
/-!
# Components entered

A component is entered at one stage of lowering only, and whatever component has an id has been
entered at a stage.
-/

namespace RequestDocs.OpenApi

open Relation (ReflTransGen)

variable {c : ApiComponents} {t : Task} {o : Outcome} {s s' : LoweringState}

/-- The first task of the stage is a reference to a component that has no id yet. -/
structure Stage.Enters (k : Stage) (path name : String) : Prop where
  parses : Reference.localName? path = .ok (some name)
  new : k.state.components.lookup name = none
  first : ∃ component slot tasks, k.tasks = .schema component slot (.reference path) :: tasks

namespace Stage.Enters

variable {k k' : Stage} {name path path' : String}

theorem exists_id (h : k.Enters path name) (hstep : Step c k k') :
    ∃ id, k'.state.components.lookup name = some id := by
  obtain ⟨hname, hnew, component, slot, tasks, htasks⟩ := h
  obtain ⟨_, s⟩ := k
  subst htasks
  cases hstep with
  | into =>
    refine ⟨s.next, ?_⟩
    have hstate : (c.expansion path s).state = s.enter name path := by
      simp only [ApiComponents.expansion, hname, hnew]
    change (c.expansion path s).state.components.lookup name = _
    rw [hstate]
    exact LoweringState.lookup_enter_self
  | past hrun =>
    obtain ⟨id, -, hid⟩ := hrun.lookup_reference hname
    exact ⟨id, hid⟩

theorem unique (h : k.Enters path name) (h' : k'.Enters path' name) (hprecedes : Precedes c k k') :
    k = k' := by
  -- A step on from the first stage would leave the second one nothing to enter.
  have hnone {k₁ : Stage} (hstep : Step c k k₁) (hext : k₁.state.Extends k'.state) : False := by
    obtain ⟨id, hid⟩ := h.exists_id hstep
    cases (hext.lookup name id hid).symm.trans h'.new
  obtain hsteps | ⟨s, hfinishes, hext⟩ := hprecedes
  · obtain heq | ⟨k₁, hstep, hsteps⟩ := hsteps.cases_head
    · exact heq
    · exact (hnone hstep (extends_of_steps hsteps)).elim
  · obtain ⟨component, slot, tasks, htasks⟩ := h.first
    obtain ⟨_, s₀⟩ := k
    subst htasks
    cases hfinishes with
    | cons hrun hrest => exact (hnone (.past hrun) (hrest.extends.trans hext)).elim

end Stage.Enters

def Stage.WillEnter (c : ApiComponents) (name : String) (k : Stage) : Prop :=
  ∃ k' path, ReflTransGen (Step c) k k' ∧ k'.Enters path name

namespace Stage.WillEnter

variable {k k' : Stage} {name : String} {tasks : List Task}

theorem now {path : String} (h : k.Enters path name) : k.WillEnter c name := ⟨k, path, .refl, h⟩

theorem later (hstep : Step c k k') (h : k'.WillEnter c name) : k.WillEnter c name := by
  obtain ⟨k'', path, hsteps, henters⟩ := h
  exact ⟨k'', path, .head hstep hsteps, henters⟩

theorem inside (heq : c.within t s = k) (h : k.WillEnter c name) :
    WillEnter c name ⟨t :: tasks, s⟩ := .later (heq ▸ .into) h

theorem either (hrun : Lowers c t s o s')
    (hfirst : ∀ id, s'.components.lookup name = some id → WillEnter c name ⟨t :: tasks, s⟩)
    (hrest : s'.components.lookup name = none → WillEnter c name ⟨tasks, s'⟩) :
    WillEnter c name ⟨t :: tasks, s⟩ := by
  cases hid : s'.components.lookup name with
  | some id => exact hfirst id hid
  | none => exact .later (.past hrun) (hrest hid)

end Stage.WillEnter

variable {name : String}

theorem Lowers.willEnter (h : Lowers c t s o s') (hold : s.components.lookup name = none)
    {id : TypeId} (hid : s'.components.lookup name = some id) (tasks : List Task) :
    Stage.WillEnter c name ⟨t :: tasks, s⟩ := by
  induction h generalizing id tasks with
  | external | known | eachNil | membersNil => cases hold.symm.trans hid
  | leaf | openArray => cases hold.symm.trans (by simpa using hid)
  | unresolved hname =>
    rcases LoweringState.lookup_enter hid with ⟨rfl, -⟩ | ⟨-, hid⟩
    · exact .now ⟨hname, hold, _, _, tasks, rfl⟩
    · cases hold.symm.trans hid
  | @entered _ _ path s component _ _ hname hnew hresolve hrun ih =>
    by_cases heq : name = component
    · subst heq
      exact .now ⟨hname, hold, _, _, tasks, rfl⟩
    · have hold' : (s.enter component path).components.lookup name = none := by
        simpa only [LoweringState.enter, List.lookup_cons, beq_eq_false_iff_ne.2 heq] using hold
      refine .inside (k := ⟨[_], _⟩) ?_ (ih hold' hid [])
      change c.expansion path s = _
      simp only [ApiComponents.expansion, hname, hnew, hresolve]
  | through hshape _ ih | ownSlot hshape _ ih | copy hshape _ _ _ ih | reserve hshape _ ih =>
    refine .inside ?_ (ih hold hid [])
    simp only [ApiComponents.within, hshape, ApiComponents.opened]
  | union hshape _ ih | array hshape _ ih =>
    refine .inside ?_ (ih hold (by simpa using hid) [])
    simp only [ApiComponents.within, hshape, ApiComponents.opened]
  | record hshape h₁ h₂ h₃ _ ih₁ ih₂ ih₃ =>
    refine .inside (by simp only [ApiComponents.within, hshape, ApiComponents.opened]; rfl) ?_
    refine .either h₁ (fun _ hid₁ => ih₁ hold hid₁ _) fun hold₁ => ?_
    refine .either h₂ (fun _ hid₂ => ih₂ hold₁ hid₂ _) fun hold₂ => ?_
    exact ih₃ hold₂ hid []
  | eachCons h₁ _ ih₁ ih₂ | membersCons h₁ _ _ ih₁ ih₂ =>
    refine .inside rfl ?_
    exact .either h₁ (fun _ hid₁ => ih₁ hold hid₁ _) fun hold₁ => ih₂ hold₁ hid []

/-- A component that has an id where a task goes on inside, and had none before, is entered by the
task. -/
private theorem enters_of_within {id : TypeId} (hold : s.components.lookup name = none)
    (hid : (c.within t s).state.components.lookup name = some id) (tasks : List Task) :
    ∃ path, Stage.Enters ⟨t :: tasks, s⟩ path name := by
  have hsame {s' : LoweringState} (heq : s'.components = s.components)
      (hid : s'.components.lookup name = some id) : False := by
    cases hold.symm.trans (heq ▸ hid)
  cases t with
  | schema component slot schema =>
    change
      (c.opened component slot schema s (schema.shape c)).state.components.lookup name = _ at hid
    cases hshape : schema.shape c with
    | reference path =>
      obtain rfl := Schema.eq_reference_of_shape hshape
      simp only [hshape, ApiComponents.opened, ApiComponents.expansion] at hid
      split at hid
      · next component' hname =>
        split at hid
        · exact (hsame rfl hid).elim
        · rcases LoweringState.lookup_enter hid with ⟨rfl, -⟩ | ⟨-, hid⟩
          · exact ⟨path, hname, hold, component, slot, tasks, rfl⟩
          · exact (hsame rfl hid).elim
      · exact (hsame rfl hid).elim
    | leaf | openArray | sameAs | union | array =>
      rw [hshape] at hid
      exact (hsame rfl hid).elim
    | record =>
      rw [hshape] at hid
      cases slot <;> exact (hsame rfl hid).elim
  | each schemas | members schemas => cases schemas <;> exact (hsame rfl hid).elim

theorem Stage.willEnter_of_steps {k k' : Stage} {id : TypeId}
    (hsteps : ReflTransGen (Step c) k k') (hold : k.state.components.lookup name = none)
    (hid : k'.state.components.lookup name = some id) : k.WillEnter c name := by
  induction hsteps using ReflTransGen.head_induction_on with
  | refl => cases hold.symm.trans hid
  | @head k k₁ hstep _ ih =>
    cases hid₁ : k₁.state.components.lookup name with
    | none => exact .later hstep (ih hid₁)
    | some id₁ =>
      cases hstep with
      | into =>
        obtain ⟨path, henters⟩ := enters_of_within hold hid₁ _
        exact .now henters
      | past hrun => exact hrun.willEnter hold hid₁ _

theorem Visits.exists_enters {ops : List ApiOperation} {k : Stage} {id : TypeId}
    (h : Visits c ops s k) (hold : s.components.lookup name = none)
    (hid : k.state.components.lookup name = some id) :
    ∃ k' path, Visits c ops s k' ∧ k'.Enters path name := by
  induction h with
  | here hbody hsteps =>
    obtain ⟨k', path, hsteps', henters⟩ := Stage.willEnter_of_steps hsteps hold hid
    exact ⟨k', path, .here hbody hsteps', henters⟩
  | @later op ops s body s₁ k hdone _ ih =>
    cases hid₁ : s₁.components.lookup name with
    | none =>
      obtain ⟨k', path, hvisits, henters⟩ := ih hid₁ hid
      exact ⟨k', path, .later hdone hvisits, henters⟩
    | some id₁ =>
      cases hdone with
      | missing | empty | unspecified => cases hold.symm.trans hid₁
      | schema hbody hrun =>
        obtain ⟨k', path, hsteps, henters⟩ := hrun.willEnter hold hid₁ []
        exact ⟨k', path, .here hbody hsteps, henters⟩

end RequestDocs.OpenApi
