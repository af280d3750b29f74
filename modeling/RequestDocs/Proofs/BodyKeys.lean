import RequestDocs.Proofs.FieldNames
import RequestDocs.Proofs.PrintedSamples
/-!
# Keys of bodies

The block of a record has a key for each of its fields. If ASCII is spelled as it is, the keys are
different unless two of the fields have names that read alike.
-/

namespace RequestDocs

/-- The block of a record in the sample of a type: the sample itself, or a block in the entry of one
of its fields. -/
inductive BlockOf (g : TypeGraph) (id : TypeId) (entries : List (String × Sample)) :
    TypeId → Sample → Prop
  | here {model : String} : BlockOf g id entries id (.block model entries)
  | inside {outer : TypeId} {model : String} {fields : List Field} {others : List (String × Sample)}
      {field : Field} {entry : String × Sample} (hfields : g.allFields outer = .ok fields)
      (hentry : (field, entry) ∈ fields.zip others) (h : BlockOf g id entries field.type entry.2) :
      BlockOf g id entries outer (.block model others)

variable {g : TypeGraph} {id : TypeId}

def KeyedBy [Spelling] (g : TypeGraph) (id : TypeId) (entries : List (String × Sample)) : Prop :=
  g.IsRecord id ∧ ∃ fields, g.allFields id = .ok fields ∧
    entries.map (·.1) = fields.map fun field => Naming.fieldName field.name

namespace Synthesis

variable {s : SynthesisState}

abbrev Keyed [Spelling] (g : TypeGraph) (id : TypeId) (sample : Sample) : Prop :=
  ∀ inner entries, BlockOf g inner entries id sample → KeyedBy g inner entries

theorem keyed_leaf [Spelling] (leaf : Sample.Leaf) : Keyed g id (.leaf leaf) := nofun

theorem keyed_block [Spelling]
    {model : String} {fields : List Field} {entries : List (String × Sample)}
    (hrecord : g.IsRecord id) (hfields : g.allFields id = .ok fields)
    (hentries : List.Forall₂ (fun field entry => entry.1 = Naming.fieldName field.name ∧
      Keyed g field.type entry.2) fields entries) : Keyed g id (.block model entries) := by
  intro inner others hblock
  cases hblock with
  | here =>
    have hsame : List.Forall₂ (· = ·) (entries.map (·.1))
        (fields.map fun field => Naming.fieldName field.name) := by
      rw [List.forall₂_map_left_iff, List.forall₂_map_right_iff]
      exact (hentries.imp fun _ _ h => h.1).flip
    exact ⟨hrecord, fields, hfields, List.forall₂_eq_eq_eq ▸ hsame⟩
  | inside hfields' hentry hinside =>
    cases hfields.symm.trans hfields'
    exact ((List.forall₂_iff_zip.1 hentries).2 hentry).2 inner others hinside

theorem sampleBelow_keyed [Spelling]
    (hg : g.Closed) (hid : g.Has id) (room : Nat) (above : List TypeId)
    (hint path : String) (s : SynthesisState) :
    Completes (sampleBelow g room above hint path id) s fun sample _ => Keyed g id sample := by
  induction room using Nat.strong_induction_on generalizing above id hint path s with
  | _ room ih =>
    by_cases hrecord : g.IsRecord id
    · by_cases habove : id ∈ above
      · rw [sampleBelow_recursive hrecord habove]
        exact .bind (discover_named hid hint) fun name t _ => .pure (keyed_leaf _)
      cases room with
      | zero =>
        rw [sampleBelow_cutOff hrecord habove]
        exact .bind (discover_named hid hint) fun name t _ => .pure (keyed_leaf _)
      | succ room =>
        rw [sampleBelow_block hrecord habove]
        refine .bind (discover_named hid hint) fun name t _ => ?_
        refine .lift_bind (hg.allFields_ok hid).eqn fun fields ⟨hfields, htypes⟩ => ?_
        have hentries : Completes (fields.mapM (entryBelow g room (id :: above) name)) t
            fun entries _ => List.Forall₂ (fun field entry =>
              entry.1 = Naming.fieldName field.name ∧ Keyed g field.type entry.2) fields entries := by
          refine .mapM_forall₂ fields t fun field hfield u => ?_
          have hbelow := ih room (Nat.lt_succ_self room) (htypes field hfield) (id :: above)
          exact .bind (hbelow _ _ u) fun sample v hkeyed => .pure ⟨rfl, hkeyed⟩
        exact .bind hentries fun entries u hkeyed => .pure (keyed_block hrecord hfields hkeyed)
    · refine (sampleBelow_shows hg hid hrecord room above hint path).mono ?_
      rintro _ t ⟨-, leaf, rfl, -⟩
      exact keyed_leaf leaf

theorem synthesize_keyed [Spelling]
    (hg : g.Closed) {root : TypeId} (hroot : g.Has root) (maxDepth : Nat)
    (hint : String) (s : SynthesisState) :
    ∃ tree t, sample g maxDepth hint root s = .ok tree t ∧
      synthesize g maxDepth hint root s = .ok tree.lines t ∧
      (g.IsRecord root → ∃ entries, BlockOf g root entries root tree) ∧ Keyed g root tree := by
  have hsample := sampleBelow_keyed hg hroot (max maxDepth 1) [] hint hint s
  obtain ⟨tree, t, hrun, hkeyed⟩ := hsample.exists_ok
  refine ⟨tree, t, hrun, synthesize_of_sample hrun, fun hrecord => ?_, hkeyed⟩
  have hroom : ([] : List TypeId).length + max maxDepth 1 = max maxDepth 1 := Nat.zero_add _
  have hdrawn := (sampleBelow_drawn hg hroom hroot hint hint s).of_ok hrun
  obtain ⟨model, entries, rfl⟩ := hdrawn.2.exists_block hrecord (by omega)
  exact ⟨entries, .here⟩

/-- The keys of a block are those that the names of the fields of its record have, in order. If ASCII
is spelled as it is, they are different exactly when the names are, and no two of these have the same
words. -/
theorem synthesize_keys [Spelling] (hascii : ∀ c, c.toNat < 128 → Spelling.ascii c = [c])
    (hg : g.Closed) {root : TypeId} (hroot : g.Has root) (maxDepth : Nat)
    (hint : String) (s : SynthesisState) :
    ∃ tree t, sample g maxDepth hint root s = .ok tree t ∧
      synthesize g maxDepth hint root s = .ok tree.lines t ∧
      (g.IsRecord root → ∃ entries, BlockOf g root entries root tree) ∧
      ∀ id entries, BlockOf g id entries root tree → g.IsRecord id ∧
        ∃ fields, g.allFields id = .ok fields ∧
          entries.map (·.1) = fields.map (fun field => Naming.fieldName field.name) ∧
          ((entries.map (·.1)).Nodup ↔ fields.Pairwise fun a b =>
            a.name ≠ b.name ∧ ¬Naming.ReadAlike a.name b.name) := by
  obtain ⟨tree, t, hrun, hlines, hroot, hkeyed⟩ := synthesize_keyed hg hroot maxDepth hint s
  refine ⟨tree, t, hrun, hlines, hroot, fun id entries hblock => ?_⟩
  obtain ⟨hrecord, fields, hfields, hkeys⟩ := hkeyed id entries hblock
  refine ⟨hrecord, fields, hfields, hkeys, ?_⟩
  rw [hkeys, List.Nodup, List.pairwise_map]
  refine List.Pairwise.iff fun a b => ?_
  rw [ne_eq, Naming.fieldName_eq_iff hascii, not_or]

attribute [local instance] Spelling.plain

theorem teamGraph_keys :
    (∀ c, c.toNat < 128 → Spelling.ascii c = [c]) ∧ teamGraph.Closed ∧ teamGraph.Has ⟨0⟩ ∧
    ∃ tree t entries,
      synthesize teamGraph 2 "Body" ⟨0⟩ .initial = .ok tree.lines t ∧
      BlockOf teamGraph ⟨0⟩ entries ⟨0⟩ tree ∧ entries.map (·.1) = ["lead", "room"] ∧
      (entries.map (·.1)).Nodup := by
  have hascii : ∀ c, c.toNat < 128 → Spelling.ascii c = [c] := fun _ => Spelling.ascii_ofOthers _
  have hclosed : teamGraph.Closed := by decide
  have hroot : teamGraph.IsRecord ⟨0⟩ := ⟨_, rfl, rfl⟩
  obtain ⟨tree, t, -, hrun, hblock, hkeys⟩ :=
    synthesize_keys hascii hclosed hroot.has 2 "Body" .initial
  obtain ⟨entries, hentries⟩ := hblock hroot
  obtain ⟨-, fields, hfields, heq, hnodup⟩ := hkeys _ _ hentries
  cases hfields
  refine ⟨hascii, hclosed, hroot.has, tree, t, entries, hrun, hentries, ?_,
    hnodup.2 (by decide +kernel)⟩
  rw [heq]
  decide +kernel

/-- A contact with two fields whose names have the same words. -/
def contactGraph : TypeGraph := .ofList [
  .record (some "Contact") none [⟨"first_name", ⟨1⟩⟩, ⟨"firstName", ⟨1⟩⟩],
  .scalar "string"]

/-- Two different names may have the same key, which then stands in a block twice, though ASCII is
spelled as it is. -/
theorem contactGraph_shadows :
    (∀ c, c.toNat < 128 → Spelling.ascii c = [c]) ∧ contactGraph.Closed ∧
    contactGraph.IsRecord ⟨0⟩ ∧ ∃ fields tree t entries,
      contactGraph.allFields ⟨0⟩ = .ok fields ∧ (fields.map (·.name)).Nodup ∧
      synthesize contactGraph 3 "Body" ⟨0⟩ .initial = .ok tree.lines t ∧
      BlockOf contactGraph ⟨0⟩ entries ⟨0⟩ tree ∧ entries.map (·.1) = ["firstName", "firstName"] ∧
      ¬(entries.map (·.1)).Nodup := by
  have hclosed : contactGraph.Closed := by decide
  have hroot : contactGraph.IsRecord ⟨0⟩ := ⟨_, rfl, rfl⟩
  obtain ⟨tree, t, -, hrun, hblock, hkeyed⟩ := synthesize_keyed hclosed hroot.has 3 "Body" .initial
  obtain ⟨entries, hentries⟩ := hblock hroot
  obtain ⟨-, fields, hfields, heq⟩ := hkeyed _ _ hentries
  have hkeys : entries.map (·.1) = ["firstName", "firstName"] := by
    cases hfields
    rw [heq]
    decide +kernel
  refine ⟨fun _ => Spelling.ascii_ofOthers _, hclosed, hroot, fields, tree, t, entries, hfields, ?_,
    hrun, hentries, hkeys, ?_⟩
  · cases hfields
    decide
  · rw [hkeys]
    decide

end Synthesis

end RequestDocs
