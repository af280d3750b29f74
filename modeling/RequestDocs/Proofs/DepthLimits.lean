import RequestDocs.Proofs.ShownTypes
/-!
# Depth limits

A sample in which no record is cut off at the depth limit stays the same with a larger limit, and a
limit that is at least the number of records of the graph cuts none off.
-/

namespace RequestDocs

/-- Some record of the sample is cut off at the depth limit. -/
inductive Sample.Cuts : Sample → Prop
  | here (model : String) : Cuts (.leaf (.cutOff model))
  | inside {model : String} {entries : List (String × Sample)} {entry : String × Sample}
      (hentry : entry ∈ entries) (h : Cuts entry.2) : Cuts (.block model entries)

namespace TypeGraph

variable {g : TypeGraph}

def recordCount (g : TypeGraph) : Nat := g.nodes.countP TypeNode.isRecord

theorem length_le_recordCount {ids : List TypeId} (hnodup : ids.Nodup)
    (hrecords : ∀ id ∈ ids, g.IsRecord id) : ids.length ≤ g.recordCount := by
  let records := g.nodes.toList.zipIdx.filter fun entry => entry.1.isRecord
  have hcount : (records.map fun entry => TypeId.mk entry.2).length = g.recordCount := by
    have hnodes : (g.nodes.toList.zipIdx.map Prod.fst).countP TypeNode.isRecord = g.recordCount := by
      rw [List.zipIdx_map_fst, Array.countP_toList, recordCount]
    rw [List.length_map, ← List.countP_eq_length_filter, ← hnodes, List.countP_map]
    rfl
  rw [← hcount]
  refine hnodup.length_le_of_subset fun id hid => ?_
  obtain ⟨node, hnode, hrecord⟩ := hrecords id hid
  have hplace : g.nodes.toList[id.index]? = some node := by
    rw [Array.getElem?_toList]
    unfold get at hnode
    split at hnode
    · next hfound =>
      cases hnode
      exact hfound
    · cases hnode
  exact List.mem_map.2 ⟨(node, id.index),
    List.mem_filter.2 ⟨List.mk_mem_zipIdx_iff_getElem?.2 hplace, hrecord⟩, rfl⟩

end TypeGraph

namespace Synthesis

variable {g : TypeGraph} {id : TypeId} {s : SynthesisState}

/-- With more room, a sample in which nothing is cut off is the same, and so is what it leaves. -/
private theorem sampleBelow_saturates [Spelling]
    {room room' : Nat} (hroom : room ≤ room') (above : List TypeId)
    (hint path : String) (id : TypeId) (s : SynthesisState) :
    Ends (fun _ => True) (sampleBelow g room above hint path id) s fun sample t =>
      ¬sample.Cuts → sampleBelow g room' above hint path id s = .ok sample t := by
  induction room using Nat.strong_induction_on generalizing room' above hint path id s with
  | _ room ih =>
    have hsame (h : sampleBelow g room' above hint path id = sampleBelow g room above hint path id) :
        Ends (fun _ => True) (sampleBelow g room above hint path id) s fun sample t =>
          ¬sample.Cuts → sampleBelow g room' above hint path id s = .ok sample t :=
      (Ends.run _ s).mono fun sample t hrun _ => (congrFun h s).trans hrun
    by_cases hrecord : g.IsRecord id
    · by_cases habove : id ∈ above
      · exact hsame (by simp only [sampleBelow_recursive hrecord habove])
      cases room with
      | zero =>
        rw [sampleBelow_cutOff hrecord habove]
        exact .bind (.run _ _) fun name t _ => .pure fun huncut => absurd (.here name) huncut
      | succ room =>
        obtain ⟨room', rfl⟩ : ∃ k, room' = k + 1 := ⟨room' - 1, by omega⟩
        rw [sampleBelow_block hrecord habove, sampleBelow_block hrecord habove]
        refine .bind (.run _ _) fun name t hname => .bind (.run _ _) fun fields u hfields => ?_
        have hentries : Ends (fun _ => True) (fields.mapM (entryBelow g room (id :: above) name)) u
            fun entries v => (∀ entry ∈ entries, ¬entry.2.Cuts) →
              fields.mapM (entryBelow g room' (id :: above) name) u = .ok entries v := by
          refine .mapM_same (fun field w => ?_) fields u
          have hbelow := ih room (Nat.lt_succ_self room) (Nat.le_of_succ_le_succ hroom)
          refine .bind (hbelow _ _ _ _ w) fun sample x hsample => .pure fun huncut => ?_
          rw [entryBelow, bind_eq_of_ok (hsample huncut)]
          rfl
        refine .bind hentries fun entries v hentries => .pure fun huncut => ?_
        have hall := hentries fun entry hentry hcuts => huncut (.inside hentry hcuts)
        rw [bind_eq_of_ok hname, bind_eq_of_ok hfields, bind_eq_of_ok hall]
        rfl
    · exact hsame (sampleBelow_of_not_isRecord hrecord _ _ _ _ _ _)

/-- Open records are different, so that when there are enough of them no other record is left to be
cut off. -/
private theorem sampleBelow_uncut [Spelling] (hg : g.Closed) {room : Nat} {above : List TypeId}
    (hroom : g.recordCount ≤ above.length + room) (hnodup : above.Nodup)
    (hrecords : ∀ r ∈ above, g.IsRecord r) (hid : g.Has id) (hint path : String)
    (s : SynthesisState) :
    Completes (sampleBelow g room above hint path id) s fun sample _ => ¬sample.Cuts := by
  induction room using Nat.strong_induction_on generalizing above id hint path s with
  | _ room ih =>
    by_cases hrecord : g.IsRecord id
    · by_cases habove : id ∈ above
      · rw [sampleBelow_recursive hrecord habove]
        exact .bind (discover_named hid hint) fun name t _ => .pure nofun
      have hopened : (id :: above).Nodup := List.nodup_cons.2 ⟨habove, hnodup⟩
      have hall : ∀ r ∈ id :: above, g.IsRecord r := List.forall_mem_cons.2 ⟨hrecord, hrecords⟩
      cases room with
      | zero =>
        have hcount := TypeGraph.length_le_recordCount hopened hall
        rw [List.length_cons] at hcount
        omega
      | succ room =>
        rw [sampleBelow_block hrecord habove]
        refine .bind (discover_named hid hint) fun name t _ => ?_
        refine .lift_bind (hg.allFields_ok hid) fun fields htypes => ?_
        have hentries : Completes (fields.mapM (entryBelow g room (id :: above) name)) t
            fun entries _ => (∀ entry ∈ entries, ¬entry.2.Cuts) ∧ True := by
          refine .mapM fields t trivial fun field hfield u _ => ?_
          refine .bind (ih room (Nat.lt_succ_self room) ?_ hopened hall (htypes field hfield) _ _ u)
            fun sample v huncut => .pure ⟨huncut, trivial⟩
          rw [List.length_cons]
          omega
        refine .bind hentries fun entries u ⟨huncut, _⟩ => .pure ?_
        rintro (_ | ⟨hentry, hcuts⟩)
        exact huncut _ hentry hcuts
    · refine (sampleBelow_shows hg hid hrecord room above hint path).mono ?_
      rintro _ t ⟨-, leaf, rfl, hshows⟩ hcuts
      cases hcuts
      cases hshows

/-- A sample that cuts no record off at its depth limit is the same with every larger limit: its
lines, and the issues, names and queue that it leaves. No record is cut off when the limit is at
least the number of records. -/
theorem synthesize_saturates [Spelling]
    (hg : g.Closed) {root : TypeId} (hroot : g.Has root) (maxDepth : Nat)
    (hint : String) (s : SynthesisState) :
    ∃ tree t, sample g maxDepth hint root s = .ok tree t ∧
      synthesize g maxDepth hint root s = .ok tree.lines t ∧
      (¬tree.Cuts → ∀ larger ≥ maxDepth, synthesize g larger hint root s = .ok tree.lines t) ∧
      (g.recordCount ≤ maxDepth → ¬tree.Cuts) := by
  obtain ⟨survey, -, hbehaves⟩ := sampleBelow_behaves hg (max maxDepth 1) [] hroot
  obtain ⟨tree, t, hrun, -⟩ := (hbehaves hint hint s).exists_ok
  refine ⟨tree, t, hrun, synthesize_of_sample hrun, fun huncut larger hlarger =>
    synthesize_of_sample ?_, fun hcount => ?_⟩
  · have hroom : max maxDepth 1 ≤ max larger 1 := by omega
    exact (sampleBelow_saturates hroom [] hint hint root s).of_ok hrun huncut
  · have hroom : g.recordCount ≤ ([] : List TypeId).length + max maxDepth 1 := by
      rw [List.length_nil]
      omega
    exact (sampleBelow_uncut hg hroom List.nodup_nil (by simp) hroot hint hint s).of_ok hrun

def personGraph : TypeGraph := .ofList [
  .record (some "Person") none [⟨"employer", ⟨1⟩⟩],
  .record (some "Company") none [⟨"owner", ⟨0⟩⟩]]

attribute [local instance] Spelling.plain

theorem personGraph_saturates :
    personGraph.Closed ∧ personGraph.Has ⟨0⟩ ∧ personGraph.recordCount = 2 ∧
    (∃ lines t, ∀ larger ≥ 2, synthesize personGraph larger "Body" ⟨0⟩ .initial = .ok lines t) ∧
    ∃ tree t, sample personGraph 1 "Body" ⟨0⟩ .initial = .ok tree t ∧ tree.Cuts := by
  have hclosed : personGraph.Closed := by decide
  have hroot : personGraph.Has ⟨0⟩ := by decide
  have hcount : personGraph.recordCount = 2 := rfl
  obtain ⟨_, _, -, -, hlarger, huncut⟩ := synthesize_saturates hclosed hroot 2 "Body" .initial
  obtain ⟨tree, t, hrun, hlines, hsame, -⟩ := synthesize_saturates hclosed hroot 1 "Body" .initial
  refine ⟨hclosed, hroot, hcount, ⟨_, _, hlarger (huncut hcount.le)⟩, tree, t, hrun, ?_⟩
  by_contra hnot
  have hdiffer : (synthesize personGraph 1 "Body" ⟨0⟩).run' .initial ≠
      (synthesize personGraph 2 "Body" ⟨0⟩).run' .initial := by
    decide +kernel
  apply hdiffer
  rw [run'_of_ok hlines, run'_of_ok (hsame hnot 2 (by decide))]

end Synthesis

end RequestDocs
