import Mathlib.Logic.Relation
import RequestDocs.Proofs.ClosedGraphs
import RequestDocs.Proofs.Occurrences
import RequestDocs.TypeGraph.Fields
/-!
# Nested records

The records that a type stands for, as those found by following elements and variants, and the
records nested in a record. A search passes over what it has visited; the records it finds are
nevertheless those of a walk that stops only where it would run in a circle, in the order in which the
walk first meets them.
-/

namespace RequestDocs

namespace TypeGraph

open Relation

variable {g : TypeGraph} {id id' r : TypeId} {above ids met : List TypeId}

def IsRecord (g : TypeGraph) (id : TypeId) : Prop := ∃ node, g.get id = .ok node ∧ node.isRecord

def Passes (g : TypeGraph) (id id' : TypeId) : Prop :=
  ∃ node, g.get id = .ok node ∧ node.isRecord = false ∧ id' ∈ node.references

/-- The other is a record that the id stands for: itself, or one in its elements and variants at any
depth. -/
def Holds (g : TypeGraph) (id r : TypeId) : Prop := ReflTransGen g.Passes id r ∧ g.IsRecord r

theorem IsRecord.has (h : g.IsRecord id) : g.Has id := by
  obtain ⟨node, hnode, -⟩ := h
  exact has_of_get hnode

theorem isRecord_iff_of_get {node : TypeNode} (hnode : g.get id = .ok node) :
    g.IsRecord id ↔ node.isRecord = true := by
  refine ⟨fun ⟨node', hnode', hrecord⟩ => ?_, fun hrecord => ⟨node, hnode, hrecord⟩⟩
  cases hnode.symm.trans hnode'
  exact hrecord

theorem IsRecord.not_passes (h : g.IsRecord id) : ¬g.Passes id id' := by
  rintro ⟨node, hnode, hother, -⟩
  obtain ⟨node', hnode', hrecord⟩ := h
  cases hnode.symm.trans hnode'
  simp [hrecord] at hother

theorem IsRecord.holds_iff (h : g.IsRecord id) : g.Holds id r ↔ r = id := by
  constructor
  · intro hholds
    rcases hholds.1.cases_head with heq | ⟨id', hpasses, -⟩
    · exact heq.symm
    · exact absurd hpasses h.not_passes
  · rintro rfl
    exact ⟨.refl, h⟩

theorem Holds.head (hpasses : g.Passes id id') (h : g.Holds id' r) : g.Holds id r :=
  ⟨h.1.head hpasses, h.2⟩

/-- The records met one after another on a walk through a list of types, each followed depth-first
through its element or variants in the order of declaration. The walk turns back at a type it is below,
and for no other reason: what has been met before is met again. -/
inductive Meets (g : TypeGraph) : (above ids met : List TypeId) → Prop
  | nil {above : List TypeId} : Meets g above [] []
  | back {id : TypeId} {above ids met : List TypeId} (hid : id ∈ above) (hrest : Meets g above ids met) :
      Meets g above (id :: ids) met
  | record {id : TypeId} {above ids met : List TypeId} (hid : id ∉ above) (hrecord : g.IsRecord id)
      (hrest : Meets g above ids met) : Meets g above (id :: ids) (id :: met)
  | through {id : TypeId} {node : TypeNode} {above ids inner met : List TypeId} (hid : id ∉ above)
      (hnode : g.get id = .ok node) (hother : node.isRecord = false)
      (hinner : Meets g (id :: above) node.references inner) (hrest : Meets g above ids met) :
      Meets g above (id :: ids) (inner ++ met)

theorem Meets.append {ids' met' : List TypeId} (h : g.Meets above ids met)
    (h' : g.Meets above ids' met') : g.Meets above (ids ++ ids') (met ++ met') := by
  induction h with
  | nil => exact h'
  | back hid _ ih => exact .back hid (ih h')
  | record hid hrecord _ ih => exact .record hid hrecord (ih h')
  | through hid hnode hother hinner _ _ ih =>
    rw [List.append_assoc]
    exact .through hid hnode hother hinner (ih h')

theorem Closed.exists_meets (hg : g.Closed) (above ids : List TypeId) (hids : ∀ v ∈ ids, g.Has v) :
    ∃ met, g.Meets above ids met := by
  induction hroom : g.unseen above using Nat.strong_induction_on generalizing above ids with
  | _ room ihroom =>
    induction ids with
    | nil => exact ⟨[], .nil⟩
    | cons id ids ih =>
      obtain ⟨hid, hrest⟩ := List.forall_mem_cons.1 hids
      obtain ⟨met, hmet⟩ := ih hrest
      by_cases habove : id ∈ above
      · exact ⟨met, .back habove hmet⟩
      obtain ⟨node, hnode, -⟩ := get_ok hid
      cases hrecord : node.isRecord with
      | true => exact ⟨id :: met, .record habove ⟨node, hnode, hrecord⟩ hmet⟩
      | false =>
        have hlt : g.unseen (id :: above) < room := by
          rw [← hroom]
          exact unseen_lt hid habove (List.subset_cons_self id above) List.mem_cons_self
        obtain ⟨inner, hinner⟩ := ihroom _ hlt (id :: above) node.references
          (fun v hv => hg.has_reference hnode hv) rfl
        exact ⟨inner ++ met, .through habove hnode hrecord hinner hmet⟩

theorem Meets.holds (h : g.Meets above ids met) (hr : r ∈ met) : ∃ v ∈ ids, g.Holds v r := by
  induction h with
  | nil => cases hr
  | back _ _ ih =>
    obtain ⟨v, hv, hholds⟩ := ih hr
    exact ⟨v, List.mem_cons_of_mem _ hv, hholds⟩
  | record _ hrecord _ ih =>
    rcases List.mem_cons.1 hr with rfl | hr
    · exact ⟨r, List.mem_cons_self, .refl, hrecord⟩
    · obtain ⟨v, hv, hholds⟩ := ih hr
      exact ⟨v, List.mem_cons_of_mem _ hv, hholds⟩
  | through _ hnode hother _ _ ihinner ih =>
    rcases List.mem_append.1 hr with hr | hr
    · obtain ⟨v, hv, hholds⟩ := ihinner hr
      exact ⟨_, List.mem_cons_self, .head ⟨_, hnode, hother, hv⟩ hholds⟩
    · obtain ⟨v, hv, hholds⟩ := ih hr
      exact ⟨v, List.mem_cons_of_mem _ hv, hholds⟩

/-- What holds of a search inside the types above: whatever it has visited it is done with, apart from
the types above. -/
private structure Explored (g : TypeGraph) (above : List TypeId) (s : RecordSearch) : Prop where
  entered : above ⊆ s.visited
  passes : ∀ v ∈ s.visited, v ∉ above → ∀ w, g.Passes v w → w ∈ s.visited
  records : ∀ v ∈ s.visited, g.IsRecord v → v ∈ s.found

private theorem Explored.find {s : RecordSearch} (h : Explored g above s) (hid : g.IsRecord id) :
    Explored g above ⟨id :: s.visited, s.found ++ [id]⟩ where
  entered _ hv := List.mem_cons_of_mem id (h.entered hv)
  passes := by
    intro v hv hn w hw
    rcases List.mem_cons.1 hv with rfl | hv
    · exact absurd hw hid.not_passes
    · exact List.mem_cons_of_mem id (h.passes v hv hn w hw)
  records := by
    intro v hv hrecord
    rcases List.mem_cons.1 hv with rfl | hv
    · simp
    · exact List.mem_append_left [id] (h.records v hv hrecord)

private theorem Explored.enter {s : RecordSearch} (h : Explored g above s) (hid : ¬g.IsRecord id) :
    Explored g (id :: above) { s with visited := id :: s.visited } where
  entered := List.cons_subset_cons id h.entered
  passes := by
    intro v hv hn w hw
    have hne : v ≠ id := fun heq => hn (by simp [heq])
    have hmem : v ∈ s.visited := (List.mem_cons.1 hv).resolve_left hne
    have hout : v ∉ above := fun hmem => hn (List.mem_cons_of_mem id hmem)
    exact List.mem_cons_of_mem id (h.passes v hmem hout w hw)
  records := by
    intro v hv hrecord
    rcases List.mem_cons.1 hv with rfl | hv
    · exact absurd hrecord hid
    · exact h.records v hv hrecord

private theorem Explored.leave {s : RecordSearch} {node : TypeNode} (h : Explored g (id :: above) s)
    (hnode : g.get id = .ok node) (hrefs : ∀ w ∈ node.references, w ∈ s.visited) :
    Explored g above s where
  entered _ hv := h.entered (List.mem_cons_of_mem id hv)
  passes := by
    intro v hv hn w hw
    by_cases hid : v = id
    · obtain ⟨node', hnode', -, hmem⟩ := hw
      rw [hid] at hnode'
      cases hnode.symm.trans hnode'
      exact hrefs w hmem
    · exact h.passes v hv (by simp [hid, hn]) w hw
  records := h.records

/-- A walk from what has been visited meets only records that have been found. The types above it may be
more than those of the search: the walk may have gone further down. -/
private theorem Explored.meets_subset {s : RecordSearch} {below : List TypeId}
    (h : Explored g above s) (hmeets : g.Meets below ids met) (hbelow : above ⊆ below)
    (hids : ∀ v ∈ ids, v ∈ s.visited) : met ⊆ s.found := by
  induction hmeets with
  | nil => exact List.nil_subset _
  | back _ _ ih => exact ih hbelow fun v hv => hids v (List.mem_cons_of_mem _ hv)
  | record _ hrecord _ ih =>
    apply List.cons_subset.2
    refine ⟨h.records _ (hids _ List.mem_cons_self) hrecord, ?_⟩
    exact ih hbelow fun v hv => hids v (List.mem_cons_of_mem _ hv)
  | @through id node below ids inner met hid hnode hother _ _ ihinner ih =>
    apply List.append_subset.2
    constructor
    · apply ihinner fun v hv => List.mem_cons_of_mem id (hbelow hv)
      intro v hv
      have hout : id ∉ above := fun hmem => hid (hbelow hmem)
      exact h.passes id (hids id List.mem_cons_self) hout v ⟨node, hnode, hother, hv⟩
    · exact ih hbelow fun v hv => hids v (List.mem_cons_of_mem id hv)

/-- A search that has found what a walk met so far, continued through a list of types: it has found what
the walk has met when it has been through the list, too. -/
private structure Continued (g : TypeGraph) (above ids met : List TypeId) (s s' : RecordSearch) :
    Prop where
  explored : Explored g above s'
  visited : s.visited ⊆ s'.visited
  entered : ∀ v ∈ ids, v ∈ s'.visited
  found : ∃ more, g.Meets above ids more ∧ s'.found.eraseDups = (met ++ more).eraseDups

/-- The walk goes once more over what has been visited, or turns back, and meets nothing new. -/
private theorem Continued.again {s : RecordSearch} (hg : g.Closed) (hid : g.Has id)
    (hs : Explored g above s) (hvisited : id ∈ s.visited) (hfound : s.found.eraseDups = met.eraseDups) :
    Continued g above [id] met s s := by
  obtain ⟨more, hmore⟩ := hg.exists_meets above [id] (by simpa using hid)
  have hsub : more ⊆ met := by
    intro r hr
    have hr : r ∈ s.found := hs.meets_subset hmore (fun _ hv => hv) (by simpa using hvisited) hr
    rwa [← List.mem_eraseDups, hfound, List.mem_eraseDups] at hr
  refine ⟨hs, fun _ hv => hv, by simpa using hvisited, more, hmore, ?_⟩
  rw [hfound, eraseDups_append_of_subset hsub]

private theorem Continued.find {s : RecordSearch} (hs : Explored g above s) (habove : id ∉ above)
    (hid : g.IsRecord id) (hfound : s.found.eraseDups = met.eraseDups) :
    Continued g above [id] met s ⟨id :: s.visited, s.found ++ [id]⟩ where
  explored := hs.find hid
  visited := List.subset_cons_self id _
  entered := by simp
  found := ⟨[id], .record habove hid .nil, eraseDups_append_congr hfound rfl⟩

private theorem Continued.through {s s' : RecordSearch} {node : TypeNode} (habove : id ∉ above)
    (hnode : g.get id = .ok node) (hother : node.isRecord = false)
    (h : Continued g (id :: above) node.references met { s with visited := id :: s.visited } s') :
    Continued g above [id] met s s' where
  explored := h.explored.leave hnode h.entered
  visited v hv := h.visited (List.mem_cons_of_mem id hv)
  entered v hv := by
    rw [List.mem_singleton.1 hv]
    exact h.visited List.mem_cons_self
  found := by
    obtain ⟨more, hmore, hmet⟩ := h.found
    have hwalk : g.Meets above [id] (more ++ []) := .through habove hnode hother hmore .nil
    rw [List.append_nil] at hwalk
    exact ⟨more, hwalk, hmet⟩

private theorem searchRecords_record {fuel : Nat} {s : RecordSearch} {node : TypeNode}
    (hid : id ∉ s.visited) (hnode : g.get id = .ok node) (hrecord : node.isRecord = true) :
    g.searchRecords (fuel + 1) s id = .ok ⟨id :: s.visited, s.found ++ [id]⟩ := by
  rw [searchRecords, if_neg hid, hnode]
  cases node with
  | record => rfl
  | _ => cases hrecord

private theorem searchRecords_through {fuel : Nat} {s : RecordSearch} {node : TypeNode}
    (hid : id ∉ s.visited) (hnode : g.get id = .ok node) (hother : node.isRecord = false) :
    g.searchRecords (fuel + 1) s id =
      node.references.foldlM (g.searchRecords fuel) { s with visited := id :: s.visited } := by
  rw [searchRecords, if_neg hid, hnode]
  cases node with
  | record => cases hother
  | array element =>
    change g.searchRecords fuel _ element = [element].foldlM _ _
    rw [List.foldlM_cons]
    exact (bind_pure _).symm
  | union | scalar | literal | unknown => rfl

private theorem searchAll_continued {fuel : Nat}
    (hstep : ∀ (s : RecordSearch) (v : TypeId) (met : List TypeId), g.Has v →
      g.unseen s.visited < fuel → Explored g above s → s.found.eraseDups = met.eraseDups →
      Succeeds (g.searchRecords fuel s v) (Continued g above [v] met s))
    (s : RecordSearch) (ids met : List TypeId) (hids : ∀ v ∈ ids, g.Has v)
    (hfuel : g.unseen s.visited < fuel) (hs : Explored g above s)
    (hfound : s.found.eraseDups = met.eraseDups) :
    Succeeds (ids.foldlM (g.searchRecords fuel) s) (Continued g above ids met s) := by
  induction ids generalizing s met with
  | nil => exact .pure ⟨hs, fun _ hv => hv, by simp, [], .nil, by simpa using hfound⟩
  | cons v vs ih =>
    obtain ⟨hhas, hrest⟩ := List.forall_mem_cons.1 hids
    rw [List.foldlM_cons]
    apply Succeeds.bind (hstep s v met hhas hfuel hs hfound)
    intro next hnext
    obtain ⟨more, hmore, hmet⟩ := hnext.found
    have hlt : g.unseen next.visited < fuel := (unseen_anti hnext.visited).trans_lt hfuel
    apply (ih next (met ++ more) hrest hlt hnext.explored hmet).mono
    intro last hlast
    obtain ⟨more', hmore', hmet'⟩ := hlast.found
    refine ⟨hlast.explored, fun w hw => hlast.visited (hnext.visited hw), ?_, more ++ more',
      hmore.append hmore', ?_⟩
    · exact List.forall_mem_cons.2
        ⟨hlast.visited (hnext.entered v List.mem_cons_self), hlast.entered⟩
    · rw [hmet', List.append_assoc]

private theorem searchRecords_continued (hg : g.Closed) (fuel : Nat) (above : List TypeId)
    (s : RecordSearch) (id : TypeId) (met : List TypeId) (hid : g.Has id)
    (hfuel : g.unseen s.visited < fuel) (hs : Explored g above s)
    (hfound : s.found.eraseDups = met.eraseDups) :
    Succeeds (g.searchRecords fuel s id) (Continued g above [id] met s) := by
  induction fuel generalizing above s id met with
  | zero => omega
  | succ fuel ih =>
    by_cases hvisited : id ∈ s.visited
    · rw [searchRecords, if_pos hvisited]
      exact .pure (.again hg hid hs hvisited hfound)
    have habove : id ∉ above := fun hmem => hvisited (hs.entered hmem)
    obtain ⟨node, hnode, -⟩ := get_ok hid
    cases hrecord : node.isRecord with
    | true =>
      rw [searchRecords_record hvisited hnode hrecord]
      exact .pure (.find hs habove ⟨node, hnode, hrecord⟩ hfound)
    | false =>
      have hother : ¬g.IsRecord id := by
        rw [isRecord_iff_of_get hnode, hrecord]
        exact Bool.false_ne_true
      have hall := searchAll_continued (ih (id :: above)) { s with visited := id :: s.visited }
        node.references met (fun v hv => hg.has_reference hnode hv)
        (unseen_cons_lt hid hvisited hfuel) (hs.enter hother) hfound
      rw [searchRecords_through hvisited hnode hrecord]
      exact hall.mono fun _ h => h.through habove hnode hrecord

theorem Closed.recordsWithin_ok (hg : g.Closed) (hid : g.Has id) :
    Succeeds (g.recordsWithin id) fun found => (∀ r, r ∈ found ↔ g.Holds id r) ∧
      ∃ met, g.Meets [] [id] met ∧ found.eraseDups = met.eraseDups := by
  have hnew : Explored g [] ⟨[], []⟩ := ⟨by simp, by simp, by simp⟩
  have hsearch := searchRecords_continued hg (g.size + 1) [] ⟨[], []⟩ id [] hid unseen_nil_lt hnew rfl
  refine .bind hsearch fun search h => ?_
  obtain ⟨met, hmet, hfound⟩ := h.found
  -- Nothing is left above, so that all that is passed to has been visited.
  have hvisited (v : TypeId) (hpath : ReflTransGen g.Passes id v) : v ∈ search.visited := by
    induction hpath with
    | refl => exact h.entered id List.mem_cons_self
    | tail _ hpasses ih => exact h.explored.passes _ ih List.not_mem_nil _ hpasses
  refine .pure ⟨fun r => ⟨fun hr => ?_, fun ⟨hpath, hrecord⟩ => ?_⟩, met, hmet, hfound⟩
  · have hr : r ∈ met := by rwa [← List.mem_eraseDups, hfound, List.mem_eraseDups] at hr
    obtain ⟨v, hv, hholds⟩ := hmet.holds hr
    rwa [List.mem_singleton.1 hv] at hholds
  · exact h.explored.records r (hvisited r hpath) hrecord

def Nests (g : TypeGraph) (id r : TypeId) : Prop :=
  ∃ nested, g.nestedRecords id = .ok nested ∧ r ∈ nested

private theorem exists_mem_iff {fields : List Field} {found : List (List TypeId)}
    (h : List.Forall₂ (fun field found => ∀ r, r ∈ found ↔ g.Holds field.type r) fields found) :
    (∃ l ∈ found, r ∈ l) ↔ ∃ field ∈ fields, g.Holds field.type r := by
  induction h with
  | nil => simp
  | cons hfirst _ ih => simp [hfirst r, ih]

private theorem exists_meets_fields {fields : List Field} {found : List (List TypeId)}
    (h : List.Forall₂ (fun field found =>
      ∃ met, g.Meets [] [field.type] met ∧ found.eraseDups = met.eraseDups) fields found) :
    ∃ met, g.Meets [] (fields.map (·.type)) met ∧ found.flatten.eraseDups = met.eraseDups := by
  induction h with
  | nil => exact ⟨[], .nil, rfl⟩
  | cons hfirst _ ih =>
    obtain ⟨met, hmet, heq⟩ := hfirst
    obtain ⟨rest, hrest, heqs⟩ := ih
    exact ⟨met ++ rest, hmet.append hrest, eraseDups_append_congr heq heqs⟩

/-- The nested records are the distinct ones of the walk through the fields without the id itself, and
they are the records that the types of fields stand for. -/
private theorem nestedRecords_walk (hg : g.Closed) (hid : g.Has id) :
    Succeeds (g.nestedRecords id) fun nested => ∃ fields met, g.allFields id = .ok fields ∧
      g.Meets [] (fields.map (·.type)) met ∧ nested = (met.filter (· != id)).eraseDups ∧
      ∀ r, r ∈ nested ↔ r ≠ id ∧ ∃ field ∈ fields, g.Holds field.type r := by
  refine .bind (hg.allFields_ok hid).eqn fun fields ⟨hfields, htypes⟩ => ?_
  refine .bind (.mapM_forall₂ fields fun f hf => hg.recordsWithin_ok (htypes f hf)) fun found hfound => ?_
  obtain ⟨met, hmet, heq⟩ := exists_meets_fields (hfound.imp fun _ _ h => h.2)
  refine .pure ⟨fields, met, hfields, hmet, ?_, fun r => ?_⟩
  · rw [eraseDups_filter, heq]
  · rw [List.mem_filter, List.mem_eraseDups, List.mem_flatten, and_comm, bne_iff_ne,
      exists_mem_iff (hfound.imp fun _ _ h => h.1)]

theorem Closed.nestedRecords_ok (hg : g.Closed) (hid : g.Has id) :
    Succeeds (g.nestedRecords id) fun nested => nested.Nodup ∧
      ∃ fields, g.allFields id = .ok fields ∧
        ∀ r, r ∈ nested ↔ r ≠ id ∧ ∃ field ∈ fields, g.Holds field.type r := by
  refine (nestedRecords_walk hg hid).mono fun nested ⟨fields, met, hfields, _, hnested, hmem⟩ => ?_
  refine ⟨?_, fields, hfields, hmem⟩
  rw [hnested]
  exact nodup_eraseDups _

theorem Closed.nests_iff (hg : g.Closed) {fields : List Field} (hfields : g.allFields id = .ok fields)
    (hid : g.Has id) : g.Nests id r ↔ r ≠ id ∧ ∃ field ∈ fields, g.Holds field.type r := by
  obtain ⟨nested, hnested, -, fields', hfields', hmem⟩ := hg.nestedRecords_ok hid
  cases hfields.symm.trans hfields'
  rw [← hmem r]
  refine ⟨fun ⟨nested', hnested', hr⟩ => ?_, fun hr => ⟨nested, hnested, hr⟩⟩
  cases hnested.symm.trans hnested'
  exact hr

theorem Closed.isRecord_of_nests (hg : g.Closed) (h : ReflTransGen g.Nests id r)
    (hid : g.IsRecord id) : g.IsRecord r := by
  induction h with
  | refl => exact hid
  | tail _ hnests ih =>
    obtain ⟨nested, hnested, hmem⟩ := hnests
    obtain ⟨nested', hnested', -, fields, -, hiff⟩ := hg.nestedRecords_ok ih.has
    cases hnested.symm.trans hnested'
    obtain ⟨-, field, -, hholds⟩ := (hiff _).1 hmem
    exact hholds.2

/-- The records nested in a type are found: they are the others that the types of its fields stand for,
each once, in the order in which a walk through the fields first meets them. -/
theorem Closed.nestedRecords_visits (hg : g.Closed) (hid : g.Has id) :
    Succeeds (g.nestedRecords id) fun nested => ∃ fields met, g.allFields id = .ok fields ∧
      g.Meets [] (fields.map (·.type)) met ∧ FirstOccurrences (met.filter (· != id)) nested ∧
      nested.Nodup ∧ ∀ r, r ∈ nested ↔ r ≠ id ∧ ∃ field ∈ fields, g.Holds field.type r := by
  apply (nestedRecords_walk hg hid).mono
  intro nested h
  obtain ⟨fields, met, hfields, hmet, hnested, hmem⟩ := h
  have hfirst : FirstOccurrences (met.filter (· != id)) nested := by
    rw [hnested]
    exact firstOccurrences_eraseDups _
  exact ⟨fields, met, hfields, hmet, hfirst, hfirst.nodup, hmem⟩

def ringGraph : TypeGraph := .ofList [
  .record (some "Pet") none [⟨"tags", ⟨1⟩⟩, ⟨"owner", ⟨2⟩⟩, ⟨"parent", ⟨0⟩⟩],
  .array ⟨2⟩,
  .union none [⟨1⟩, ⟨3⟩, ⟨4⟩],
  .record (some "Tag") none [],
  .record (some "Owner") none []]

theorem ringGraph_visits : ringGraph.Closed ∧ ringGraph.Has ⟨0⟩ ∧
    ringGraph.nestedRecords ⟨0⟩ = .ok [⟨3⟩, ⟨4⟩] ∧
    ∃ met, ringGraph.Meets [] [⟨1⟩, ⟨2⟩, ⟨0⟩] met ∧
      FirstOccurrences (met.filter (· != ⟨0⟩)) [⟨3⟩, ⟨4⟩] := by
  have hclosed : ringGraph.Closed := by decide
  have hid : ringGraph.Has ⟨0⟩ := by decide
  have hrun : ringGraph.nestedRecords ⟨0⟩ = .ok [⟨3⟩, ⟨4⟩] := rfl
  obtain ⟨nested, hnested, fields, met, hfields, hmet, hfirst, -⟩ := hclosed.nestedRecords_visits hid
  cases hrun.symm.trans hnested
  have hall : ringGraph.allFields ⟨0⟩ = .ok [⟨"tags", ⟨1⟩⟩, ⟨"owner", ⟨2⟩⟩, ⟨"parent", ⟨0⟩⟩] := rfl
  cases hall.symm.trans hfields
  exact ⟨hclosed, hid, hrun, met, hmet, hfirst⟩

end TypeGraph

end RequestDocs
