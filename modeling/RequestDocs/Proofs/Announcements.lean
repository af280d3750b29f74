import RequestDocs.Proofs.Surveys
/-!
# Announcements

The records that a synthesis announces: those that stand directly in the place of its root, and
otherwise only records nested in these.
-/

namespace RequestDocs.Synthesis

open Relation

variable {g : TypeGraph} {id : TypeId}

theorem recordsAmong_ok (ids : List TypeId) (hids : ∀ id ∈ ids, g.Has id) :
    Succeeds (recordsAmong g ids) fun records => ∀ r, r ∈ records ↔ r ∈ ids ∧ g.IsRecord r := by
  induction ids with
  | nil => exact .pure (by simp)
  | cons id ids ih =>
    refine .bind (TypeGraph.get_ok (hids id List.mem_cons_self)) fun node hnode => ?_
    refine .bind (ih fun id' hid' => hids id' (List.mem_cons_of_mem id hid')) fun records hrecords => ?_
    refine .pure fun r => ?_
    have hrecord : g.IsRecord id ↔ node.isRecord = true := by
      constructor
      · rintro ⟨node', hnode', hrecord⟩
        cases hnode.symm.trans hnode'
        exact hrecord
      · exact fun hrecord => ⟨node, hnode, hrecord⟩
    by_cases hnoderecord : node.isRecord
    · simp only [hnoderecord, if_true, List.mem_cons, hrecords, or_and_right]
      refine or_congr_left ⟨?_, And.left⟩
      rintro rfl
      exact ⟨rfl, hrecord.2 hnoderecord⟩
    · simp only [hnoderecord, List.mem_cons, or_and_right]
      refine (hrecords r).trans ⟨.inr, ?_⟩
      rintro (⟨rfl, hr⟩ | hr)
      · exact absurd (hrecord.1 hr) hnoderecord
      · exact hr

/-- The records that stand directly in the place of an id: itself, its element, or its variants. -/
def Direct (g : TypeGraph) (id r : TypeId) : Prop := (r = id ∨ g.Passes id r) ∧ g.IsRecord r

theorem Direct.holds {r : TypeId} (h : Direct g id r) : g.Holds id r := by
  obtain ⟨rfl | hpasses, hrecord⟩ := h
  · exact ⟨.refl, hrecord⟩
  · exact ⟨.single hpasses, hrecord⟩

/-- The ids are the records directly in the place of an id, and some nested in these. -/
structure Announces (g : TypeGraph) (id : TypeId) (ids : List TypeId) : Prop where
  direct : ∀ r, Direct g id r → r ∈ ids
  nested : ∀ x ∈ ids, ∃ r, Direct g id r ∧ ReflTransGen g.Nests r x

private theorem Announces.among {node : TypeNode} {records : List TypeId}
    (hnode : g.get id = .ok node) (hother : node.isRecord = false)
    (h : ∀ r, r ∈ records ↔ r ∈ node.references ∧ g.IsRecord r) : Announces g id records where
  direct := by
    rintro r ⟨rfl | ⟨node', hnode', -, hmem⟩, hrecord⟩
    · obtain ⟨node', hnode', hrecord⟩ := hrecord
      cases hnode.symm.trans hnode'
      simp [hrecord] at hother
    · cases hnode.symm.trans hnode'
      exact (h r).2 ⟨hmem, hrecord⟩
  nested x hx := by
    obtain ⟨hmem, hrecord⟩ := (h x).1 hx
    exact ⟨x, ⟨.inr ⟨node, hnode, hother, hmem⟩, hrecord⟩, .refl⟩

private theorem Announces.record {ids : List TypeId} (hrecord : g.IsRecord id)
    (h : ∀ x ∈ ids, ReflTransGen g.Nests id x) : Announces g id (id :: ids) where
  direct := by
    rintro r ⟨rfl | hpasses, -⟩
    · exact List.mem_cons_self
    · exact absurd hpasses hrecord.not_passes
  nested x hx := by
    refine ⟨id, ⟨.inl rfl, hrecord⟩, ?_⟩
    rcases List.mem_cons.1 hx with rfl | hx
    · exact .refl
    · exact h x hx

theorem surveyBelow_announced [Spelling]
    (hg : g.Closed) (room : Nat) (above : List TypeId) (hid : g.Has id) :
    Succeeds (surveyBelow g room above id) fun survey => Announces g id survey.announced := by
  induction room using Nat.strong_induction_on generalizing above id with
  | _ room ih =>
    unfold surveyBelow
    refine .bind (TypeGraph.get_ok hid) fun node hnode => ?_
    have href := fun r => hg.has_reference hnode (r := r)
    cases node with
    | scalar | literal | unknown => exact .pure (.among hnode rfl (by simp [TypeNode.references]))
    | union name variants =>
      refine .bind (recordsAmong_ok variants href) fun records hrecords => ?_
      exact .bind (firstLiteral_ok variants href) fun _ _ => .pure (.among hnode rfl hrecords)
    | array element =>
      refine .bind (recordsAmong_ok [element] href) fun records hrecords => ?_
      exact .pure (.among hnode rfl hrecords)
    | record name base fields =>
      have hrecord : g.IsRecord id := ⟨_, hnode, rfl⟩
      have honly : Announces g id [id] := .record hrecord (by simp)
      by_cases habove : id ∈ above
      · simp only [habove, if_true]
        exact .pure honly
      simp only [habove, if_false]
      cases room with
      | zero => exact .pure honly
      | succ room =>
        refine .bind (hg.allFields_ok hid).eqn fun fields hfound => ?_
        obtain ⟨hfields, htypes⟩ := hfound
        have hentries : Succeeds (fields.mapM fun field => do
            return (Naming.fieldName field.name, ← surveyBelow g room (id :: above) field.type))
            fun entries => ∀ entry ∈ entries, ∀ x ∈ entry.2.announced,
              ReflTransGen g.Nests id x := by
          refine .mapM fields fun field hfield => ?_
          refine .bind (ih room (Nat.lt_succ_self room) _ (htypes field hfield)) fun survey hsurvey => ?_
          refine .pure fun x hx => ?_
          obtain ⟨r, hdirect, hpath⟩ := hsurvey.nested x hx
          -- The record itself is not nested in itself, but what is nested in it is all the same.
          by_cases hr : r = id
          · exact hr ▸ hpath
          · exact hpath.head ((hg.nests_iff hfields hid).2 ⟨hr, field, hfield, hdirect.holds⟩)
        refine .bind hentries fun entries hentries => .pure (.record hrecord fun x hx => ?_)
        obtain ⟨entry, hentry, hx⟩ := List.mem_flatMap.1 hx
        exact hentries entry hentry x hx

end RequestDocs.Synthesis
