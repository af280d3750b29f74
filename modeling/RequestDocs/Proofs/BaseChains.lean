import Mathlib.Data.List.Chain
import RequestDocs.Proofs.NestedRecords
/-!
# Base chains

All fields of a record are the own fields of the records on its base chain. Bases may run in a circle,
which need not lead back to the record itself; the chain ends where it would repeat a record.
-/

namespace RequestDocs.TypeGraph

open Relation

variable {g : TypeGraph} {id base r : TypeId}

def Extends (g : TypeGraph) (id base : TypeId) : Prop :=
  ∃ name fields, g.get id = .ok (.record name (some base) fields)

def ownFields (g : TypeGraph) (id : TypeId) : List Field :=
  match g.get id with
  | .ok (.record _ _ fields) => fields
  | _ => []

/-- The records met when bases are followed from an id, the id itself first. They end with a record
that has no base, whose base is no record, or whose base has been met. -/
structure BaseChain (g : TypeGraph) (id : TypeId) (chain : List TypeId) : Prop where
  records : ∀ r ∈ chain, g.IsRecord r
  start : ∀ r, chain.head? = some r ↔ g.IsRecord id ∧ r = id
  linked : chain.IsChain g.Extends
  nodup : chain.Nodup
  ends : ∀ r ∈ chain, ∀ base, g.Extends r base → g.IsRecord base → base ∈ chain

theorem Extends.isRecord (h : g.Extends id base) : g.IsRecord id := by
  obtain ⟨name, fields, hnode⟩ := h
  exact ⟨_, hnode, rfl⟩

theorem Extends.eq_base {name : Option String} {base' : Option TypeId} {fields : List Field}
    (h : g.Extends id base) (hnode : g.get id = .ok (.record name base' fields)) :
    base' = some base := by
  obtain ⟨name', fields', hnode'⟩ := h
  cases hnode.symm.trans hnode'
  rfl

theorem ownFields_of_get {name : Option String} {base' : Option TypeId} {fields : List Field}
    (hnode : g.get id = .ok (.record name base' fields)) : g.ownFields id = fields := by
  rw [ownFields, hnode]

theorem BaseChain.mem_iff {chain : List TypeId} (h : g.BaseChain id chain) :
    r ∈ chain ↔ g.IsRecord r ∧ ReflTransGen g.Extends id r := by
  constructor
  · intro hr
    refine ⟨h.records r hr, ?_⟩
    apply h.linked.induction (ReflTransGen g.Extends id) chain ?_ ?_ r hr
    · intro x y hextends hpath
      exact hpath.tail hextends
    · intro hne
      rw [((h.start _).1 (List.head?_eq_some_head hne)).2]
  · rintro ⟨hrecord, hpath⟩
    induction hpath with
    | refl => exact List.mem_of_mem_head? ((h.start id).2 ⟨hrecord, rfl⟩)
    | tail _ hextends ih => exact h.ends _ (ih hextends.isRecord) _ hextends hrecord

/-- The part of a chain from an id on, where the records before it have been seen. -/
private structure ChainBelow (g : TypeGraph) (seen : List TypeId) (id : TypeId)
    (chain : List TypeId) : Prop where
  records : ∀ r ∈ chain, g.IsRecord r
  apart : ∀ r ∈ chain, r ∉ seen
  start : ∀ r, chain.head? = some r ↔ id ∉ seen ∧ g.IsRecord id ∧ r = id
  linked : chain.IsChain g.Extends
  nodup : chain.Nodup
  ends : ∀ r ∈ chain, ∀ base, g.Extends r base → g.IsRecord base → base ∈ chain ∨ base ∈ seen

private theorem ChainBelow.nil {seen : List TypeId} (h : id ∈ seen ∨ ¬g.IsRecord id) :
    ChainBelow g seen id [] where
  records := by simp
  apart := by simp
  start r := by
    constructor
    · intro hr
      cases hr
    · rintro ⟨hid, hrecord, -⟩
      rcases h with h | h
      · exact absurd h hid
      · exact absurd hrecord h
  linked := .nil
  nodup := .nil
  ends := by simp

private theorem ChainBelow.single {seen : List TypeId} {name : Option String} {fields : List Field}
    (hid : id ∉ seen) (hnode : g.get id = .ok (.record name none fields)) :
    ChainBelow g seen id [id] where
  records := by
    intro r hr
    rw [List.mem_singleton.1 hr]
    exact ⟨_, hnode, rfl⟩
  apart := by
    intro r hr
    rwa [List.mem_singleton.1 hr]
  start r := by
    have hrecord : g.IsRecord id := ⟨_, hnode, rfl⟩
    simp [hid, hrecord, eq_comm]
  linked := .singleton id
  nodup := List.nodup_singleton id
  ends := by
    intro r hr base hextends
    rw [List.mem_singleton.1 hr] at hextends
    cases hextends.eq_base hnode

private theorem ChainBelow.cons {seen chain : List TypeId} {name : Option String}
    {fields : List Field} (hid : id ∉ seen) (hnode : g.get id = .ok (.record name (some base) fields))
    (h : ChainBelow g (id :: seen) base chain) : ChainBelow g seen id (id :: chain) where
  records := by
    intro r hr
    rcases List.mem_cons.1 hr with rfl | hr
    · exact ⟨_, hnode, rfl⟩
    · exact h.records r hr
  apart := by
    intro r hr
    rcases List.mem_cons.1 hr with rfl | hr
    · exact hid
    · exact fun hseen => h.apart r hr (List.mem_cons_of_mem id hseen)
  start r := by
    have hrecord : g.IsRecord id := ⟨_, hnode, rfl⟩
    simp [hid, hrecord, eq_comm]
  linked := by
    apply List.isChain_cons.2
    refine ⟨?_, h.linked⟩
    intro r hr
    rw [((h.start r).1 hr).2.2]
    exact ⟨name, fields, hnode⟩
  nodup := by
    apply List.nodup_cons.2
    refine ⟨?_, h.nodup⟩
    intro hmem
    exact h.apart id hmem List.mem_cons_self
  ends := by
    intro r hr next hextends hrecord
    rcases List.mem_cons.1 hr with rfl | hr
    · -- The base of the id itself either starts the rest of the chain or has been seen.
      cases hextends.eq_base hnode
      by_cases hseen : base ∈ r :: seen
      · rcases List.mem_cons.1 hseen with rfl | hseen
        · exact .inl List.mem_cons_self
        · exact .inr hseen
      · have hhead : chain.head? = some base := (h.start base).2 ⟨hseen, hrecord, rfl⟩
        exact .inl (List.mem_cons_of_mem r (List.mem_of_mem_head? hhead))
    · rcases h.ends r hr next hextends hrecord with hmem | hseen
      · exact .inl (List.mem_cons_of_mem id hmem)
      · rcases List.mem_cons.1 hseen with rfl | hseen
        · exact .inl List.mem_cons_self
        · exact .inr hseen

private theorem baseChain_follows (hg : g.Closed) (fuel : Nat) (seen : List TypeId) (id : TypeId)
    (hid : g.Has id) (hfuel : g.unseen seen < fuel) :
    Succeeds (g.baseChain fuel seen id) fun fieldLists =>
      ∃ chain, ChainBelow g seen id chain ∧ fieldLists = chain.map g.ownFields := by
  induction fuel generalizing seen id with
  | zero => omega
  | succ fuel ih =>
    unfold baseChain
    by_cases hs : id ∈ seen
    · rw [if_pos hs]
      exact .pure ⟨[], .nil (.inl hs), rfl⟩
    rw [if_neg hs]
    apply Succeeds.bind (get_ok hid)
    intro node hnode
    have hother (h : node.isRecord = false) : ¬g.IsRecord id := by
      rw [isRecord_iff_of_get hnode, h]
      exact Bool.false_ne_true
    cases node with
    | record name base fields =>
      cases base with
      | none => exact .pure ⟨[id], .single hs hnode, by simp [ownFields_of_get hnode]⟩
      | some base =>
        have hbase : g.Has base := hg.has_reference hnode (by simp [TypeNode.references])
        apply Succeeds.bind (ih (id :: seen) base hbase (unseen_cons_lt hid hs hfuel))
        rintro _ ⟨chain, hchain, rfl⟩
        exact .pure ⟨id :: chain, .cons hs hnode hchain, by simp [ownFields_of_get hnode]⟩
    | scalar | literal | union | array | unknown => exact .pure ⟨[], .nil (.inr (hother rfl)), rfl⟩

/-- All fields of an id are found, and they are the own fields of the records on its base chain, from the
last one on the chain to the id itself. Every record that bases lead to is on the chain, and once; there
is none if the id is no record. -/
theorem Closed.allFields_chain (hg : g.Closed) (hid : g.Has id) :
    Succeeds (g.allFields id) fun fields => ∃ chain, g.BaseChain id chain ∧
      fields = chain.reverse.flatMap g.ownFields ∧
      (∀ r, r ∈ chain ↔ g.IsRecord r ∧ ReflTransGen g.Extends id r) ∧
      (¬g.IsRecord id → fields = []) := by
  apply Succeeds.bind (baseChain_follows hg (g.size + 1) [] id hid unseen_nil_lt)
  rintro _ ⟨chain, h, rfl⟩
  have hchain : g.BaseChain id chain :=
    { records := h.records
      start := by simpa using h.start
      linked := h.linked
      nodup := h.nodup
      ends := by simpa using h.ends }
  apply Succeeds.pure
  refine ⟨chain, hchain, ?_, fun r => hchain.mem_iff, ?_⟩
  · rw [← List.map_reverse, List.flatMap_def]
  · intro hother
    cases chain with
    | nil => rfl
    | cons first rest => exact absurd ((h.start first).1 rfl).2.1 hother

/-- A dog whose base, an animal, and the base of that have each other as bases. -/
def animalGraph : TypeGraph := .ofList [
  .record (some "Dog") (some ⟨1⟩) [⟨"barks", ⟨3⟩⟩],
  .record (some "Animal") (some ⟨2⟩) [⟨"name", ⟨3⟩⟩, ⟨"name", ⟨0⟩⟩],
  .record (some "Being") (some ⟨1⟩) [⟨"age", ⟨3⟩⟩],
  .scalar "string"]

theorem animalGraph_chain : animalGraph.Closed ∧ animalGraph.Has ⟨0⟩ ∧
    ∃ chain, animalGraph.BaseChain ⟨0⟩ chain ∧
      [⟨"age", ⟨3⟩⟩, ⟨"name", ⟨3⟩⟩, ⟨"name", ⟨0⟩⟩, ⟨"barks", ⟨3⟩⟩] =
        chain.reverse.flatMap animalGraph.ownFields := by
  have hclosed : animalGraph.Closed := by decide
  have hid : animalGraph.Has ⟨0⟩ := by decide
  obtain ⟨fields, hfields, chain, hchain, heq, -⟩ := hclosed.allFields_chain hid
  have hrun : animalGraph.allFields ⟨0⟩ =
      .ok [⟨"age", ⟨3⟩⟩, ⟨"name", ⟨3⟩⟩, ⟨"name", ⟨0⟩⟩, ⟨"barks", ⟨3⟩⟩] := rfl
  cases hrun.symm.trans hfields
  exact ⟨hclosed, hid, chain, hchain, heq⟩

end RequestDocs.TypeGraph
