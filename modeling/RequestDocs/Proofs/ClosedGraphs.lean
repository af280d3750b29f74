import Mathlib.Data.Finset.Card
import Mathlib.Data.Finset.Range
import RequestDocs.Proofs.Steps
/-!
# Walks of closed graphs

A graph is closed when its nodes refer to ids of the graph only. No walk of a closed graph meets a
fault: ids that it looks up belong to the graph, and its bound is out of reach because every step
down leaves one id fewer to visit.
-/

namespace RequestDocs.TypeGraph

def Has (g : TypeGraph) (id : TypeId) : Prop := id.index < g.size

/-- All references of nodes stay within the graph. -/
def Closed (g : TypeGraph) : Prop := ∀ node ∈ g.nodes, ∀ id ∈ node.references, g.Has id

instance (g : TypeGraph) (id : TypeId) : Decidable (g.Has id) := Nat.decLt _ _

instance (g : TypeGraph) : Decidable g.Closed :=
  inferInstanceAs (Decidable (∀ node ∈ g.nodes, ∀ id ∈ node.references, g.Has id))

variable {g : TypeGraph}

theorem get_ok {id : TypeId} (h : g.Has id) :
    Succeeds (g.get id) fun node => g.get id = .ok node := by
  have hi : id.index < g.nodes.size := h
  have hget : g.get id = .ok g.nodes[id.index] := by simp [get, hi]
  exact ⟨g.nodes[id.index], hget, hget⟩

theorem has_of_get {id : TypeId} {node : TypeNode} (h : g.get id = .ok node) : g.Has id := by
  unfold get at h
  split at h
  · next hn => exact (Array.getElem?_eq_some_iff.1 hn).1
  · cases h

theorem mem_nodes_of_get {id : TypeId} {node : TypeNode} (h : g.get id = .ok node) :
    node ∈ g.nodes := by
  unfold get at h
  split at h
  · next hn =>
    cases h
    exact Array.mem_of_getElem? hn
  · cases h

theorem Closed.has_reference (hg : g.Closed) {id : TypeId} {node : TypeNode}
    (h : g.get id = .ok node) {r : TypeId} (hr : r ∈ node.references) : g.Has r :=
  hg node (mem_nodes_of_get h) r hr

def unseen (g : TypeGraph) (seen : List TypeId) : Nat :=
  ((Finset.range g.size).filter fun i => (⟨i⟩ : TypeId) ∉ seen).card

theorem unseen_le_size (g : TypeGraph) (seen : List TypeId) : g.unseen seen ≤ g.size := by
  simpa [unseen] using Finset.card_filter_le (Finset.range g.size) fun i => (⟨i⟩ : TypeId) ∉ seen

theorem unseen_anti {seen seen' : List TypeId} (h : seen ⊆ seen') :
    g.unseen seen' ≤ g.unseen seen := by
  apply Finset.card_le_card
  intro i hi
  simp only [Finset.mem_filter] at hi ⊢
  exact ⟨hi.1, fun hs => hi.2 (h hs)⟩

theorem unseen_lt {seen seen' : List TypeId} {id : TypeId} (hid : g.Has id) (hn : id ∉ seen)
    (h : seen ⊆ seen') (hmem : id ∈ seen') : g.unseen seen' < g.unseen seen := by
  apply Finset.card_lt_card
  refine (Finset.ssubset_iff_of_subset ?_).2 ⟨id.index, ?_, ?_⟩
  · intro i hi
    simp only [Finset.mem_filter] at hi ⊢
    exact ⟨hi.1, fun hs => hi.2 (h hs)⟩
  · simpa [Has] using And.intro hid hn
  · simp [hmem]

theorem unseen_cons_lt {seen : List TypeId} {id : TypeId} {fuel : Nat} (hid : g.Has id)
    (hn : id ∉ seen) (hfuel : g.unseen seen < fuel + 1) : g.unseen (id :: seen) < fuel := by
  have := unseen_lt hid hn (List.subset_cons_self id seen) List.mem_cons_self
  omega

private theorem baseChain_ok (hg : g.Closed) (fuel : Nat) (seen : List TypeId) (id : TypeId)
    (hid : g.Has id) (hfuel : g.unseen seen < fuel) :
    Succeeds (g.baseChain fuel seen id) fun chain => ∀ fields ∈ chain, ∀ f ∈ fields, g.Has f.type := by
  induction fuel generalizing seen id with
  | zero => omega
  | succ fuel ih =>
    unfold baseChain
    by_cases hs : id ∈ seen
    · rw [if_pos hs]
      exact .pure (by simp)
    rw [if_neg hs]
    refine .bind (get_ok hid) fun node hnode => ?_
    have href := fun r => hg.has_reference hnode (r := r)
    cases node with
    | record name base fields =>
      have hfields : ∀ f ∈ fields, g.Has f.type := by
        intro f hf
        apply href
        simp only [TypeNode.references, List.mem_append, List.mem_map]
        exact Or.inr ⟨f, hf, rfl⟩
      cases base with
      | none => exact .pure (by simpa using hfields)
      | some base =>
        have hbase : g.Has base := href base (by simp [TypeNode.references])
        refine .bind (ih (id :: seen) base hbase (unseen_cons_lt hid hs hfuel)) fun chain hmem => ?_
        refine .pure fun fs hfs => ?_
        rcases List.mem_cons.1 hfs with rfl | hfs
        · exact hfields
        · exact hmem fs hfs
    | scalar | literal | union | array | unknown => exact .pure (by simp)

theorem unseen_nil_lt : g.unseen [] < g.size + 1 := Nat.lt_succ_of_le (g.unseen_le_size [])

theorem Closed.allFields_ok (hg : g.Closed) {id : TypeId} (hid : g.Has id) :
    Succeeds (g.allFields id) fun fields => ∀ f ∈ fields, g.Has f.type := by
  refine .bind (baseChain_ok hg (g.size + 1) [] id hid unseen_nil_lt) fun chain hmem => ?_
  refine .pure fun f hf => ?_
  obtain ⟨fields, hfields, hf⟩ := List.mem_flatten.1 hf
  exact hmem fields (List.mem_reverse.1 hfields) f hf

end RequestDocs.TypeGraph
