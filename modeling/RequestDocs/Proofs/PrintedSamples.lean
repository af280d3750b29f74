import RequestDocs.Proofs.ShownTypes
/-!
# Printed samples

The lines of the sample of a record are the unfolding of the graph from it. A field with a record that
is not open yet becomes a block while there is room for one more, and every other field one line.
-/

namespace RequestDocs

/-- A line with the records that are open where it stands, the innermost first. -/
structure PlacedLine where
  opened : List TypeId
  text : String

/-- The line of a field: a space for every open record, the key, and what stands for its value. -/
def fieldLine [Spelling] (opened : List TypeId) (field : Field) (value : String) : PlacedLine :=
  ⟨opened, Sample.indent opened.length ++ "\"" ++ Naming.fieldName field.name ++ "\": " ++ value⟩

def closingLine (opened : List TypeId) : PlacedLine := ⟨opened, Sample.indent opened.length ++ "\x7d,"⟩

/-- The unfolding of fields below open records, of which there may be as many as the bound. -/
inductive Unfolds [Spelling] (g : TypeGraph) (names : NameRegistry) (bound : Nat) :
    (opened : List TypeId) → List Field → List PlacedLine → Prop
  | nil {opened : List TypeId} : Unfolds g names bound opened [] []
  /-- A field without a record takes the line of its type. -/
  | line {opened : List TypeId} {field : Field} {leaf : Sample.Leaf} {fields : List Field}
      {rest : List PlacedLine} (hleaf : Shows g names field.type leaf)
      (hrest : Unfolds g names bound opened fields rest) :
      Unfolds g names bound opened (field :: fields)
        (fieldLine opened field (leaf.value ++ ", // " ++ leaf.note) :: rest)
  /-- A record that is not open yet is opened while there is room. -/
  | block {opened : List TypeId} {field : Field} {model : String} {inner fields : List Field}
      {entries rest : List PlacedLine} (hrecord : g.IsRecord field.type)
      (hname : names.nameOf? field.type = some model) (hclosed : field.type ∉ opened)
      (hroom : opened.length < bound) (hinner : g.allFields field.type = .ok inner)
      (hentries : Unfolds g names bound (field.type :: opened) inner entries)
      (hrest : Unfolds g names bound opened fields rest) :
      Unfolds g names bound opened (field :: fields)
        (fieldLine opened field ("\x7b // Model " ++ model) :: entries ++
          closingLine opened :: rest)
  | recursive {opened : List TypeId} {field : Field} {model : String} {fields : List Field}
      {rest : List PlacedLine} (hrecord : g.IsRecord field.type)
      (hname : names.nameOf? field.type = some model) (hopened : field.type ∈ opened)
      (hrest : Unfolds g names bound opened fields rest) :
      Unfolds g names bound opened (field :: fields)
        (fieldLine opened field ("\x7b\x7d, // Model " ++ model ++ " (recursive reference)") :: rest)
  | cutOff {opened : List TypeId} {field : Field} {model : String} {fields : List Field}
      {rest : List PlacedLine} (hrecord : g.IsRecord field.type)
      (hname : names.nameOf? field.type = some model) (hclosed : field.type ∉ opened)
      (hfull : bound ≤ opened.length) (hrest : Unfolds g names bound opened fields rest) :
      Unfolds g names bound opened (field :: fields)
        (fieldLine opened field ("\x7b\x7d, // Model " ++ model ++ " (depth limit reached)") :: rest)

variable {g : TypeGraph} {names names' : NameRegistry} {bound : Nat} {opened : List TypeId}
  {fields : List Field} {id : TypeId}

namespace Unfolds

variable {lines lines' : List PlacedLine}

theorem mono [Spelling]
    (h : Unfolds g names bound opened fields lines) (hkeeps : names.Keeps names') :
    Unfolds g names' bound opened fields lines := by
  induction h with
  | nil => exact .nil
  | line hleaf _ ih => exact .line (hleaf.mono hkeeps) ih
  | block hrecord hname hclosed hroom hinner _ _ ihentries ih =>
    exact .block hrecord (hkeeps.kept _ _ hname) hclosed hroom hinner ihentries ih
  | recursive hrecord hname hopened _ ih =>
    exact .recursive hrecord (hkeeps.kept _ _ hname) hopened ih
  | cutOff hrecord hname hclosed hfull _ ih =>
    exact .cutOff hrecord (hkeeps.kept _ _ hname) hclosed hfull ih

theorem unique [Spelling] (h : Unfolds g names bound opened fields lines)
    (h' : Unfolds g names bound opened fields lines') : lines = lines' := by
  induction h generalizing lines' with
  | nil =>
    cases h'
    rfl
  | line hleaf _ ih =>
    cases h' with
    | line hleaf' hrest' => rw [hleaf.unique hleaf', ih hrest']
    | block hrecord | recursive hrecord | cutOff hrecord => exact absurd hrecord hleaf.not_isRecord
  | block hrecord hname hclosed hroom hinner _ _ ihentries ih =>
    cases h' with
    | block _ hname' _ _ hinner' hentries' hrest' =>
      cases hname.symm.trans hname'
      cases hinner.symm.trans hinner'
      rw [ihentries hentries', ih hrest']
    | line hleaf => exact absurd hrecord hleaf.not_isRecord
    | recursive _ _ hopened => exact absurd hopened hclosed
    | cutOff _ _ _ hfull => omega
  | recursive hrecord hname hopened _ ih =>
    cases h' with
    | recursive _ hname' _ hrest' =>
      cases hname.symm.trans hname'
      rw [ih hrest']
    | line hleaf => exact absurd hrecord hleaf.not_isRecord
    | block _ _ hclosed | cutOff _ _ hclosed => exact absurd hopened hclosed
  | cutOff hrecord hname hclosed hfull _ ih =>
    cases h' with
    | cutOff _ hname' _ _ hrest' =>
      cases hname.symm.trans hname'
      rw [ih hrest']
    | line hleaf => exact absurd hrecord hleaf.not_isRecord
    | recursive _ _ hopened => exact absurd hopened hclosed
    | block _ _ _ hroom => omega

end Unfolds

/-- The line stands below different open records, no more than the bound, and is indented by one space
for each of them. -/
structure PlacedLine.Fits (bound : Nat) (line : PlacedLine) : Prop where
  nodup : line.opened.Nodup
  length : line.opened.length ≤ bound
  indented : ∃ text, line.text = Sample.indent line.opened.length ++ text ∧
    text.toList.head? ≠ some ' '

theorem fits_fieldLine [Spelling]
    (hnodup : opened.Nodup) (hlength : opened.length ≤ bound) (field : Field)
    (value : String) : (fieldLine opened field value).Fits bound where
  nodup := hnodup
  length := hlength
  indented := by
    refine ⟨"\"" ++ Naming.fieldName field.name ++ "\": " ++ value, ?_, ?_⟩
    · simp only [fieldLine, String.append_assoc]
    · simp

theorem fits_closingLine (hnodup : opened.Nodup) (hlength : opened.length ≤ bound) :
    (closingLine opened).Fits bound where
  nodup := hnodup
  length := hlength
  indented := ⟨"\x7d,", rfl, by decide⟩

theorem Unfolds.fits [Spelling]
    {lines : List PlacedLine} (h : Unfolds g names bound opened fields lines)
    (hnodup : opened.Nodup) (hlength : opened.length ≤ bound) :
    ∀ line ∈ lines, line.Fits bound := by
  induction h with
  | nil => simp
  | line _ _ ih | recursive _ _ _ _ ih | cutOff _ _ _ _ _ ih =>
    exact List.forall_mem_cons.2 ⟨fits_fieldLine hnodup hlength _ _, ih hnodup hlength⟩
  | block _ _ hclosed hroom _ _ _ ihentries ih =>
    have hentries := ihentries (List.nodup_cons.2 ⟨hclosed, hnodup⟩) hroom
    rw [List.cons_append]
    exact List.forall_mem_cons.2 ⟨fits_fieldLine hnodup hlength _ _, List.forall_mem_append.2
      ⟨hentries, List.forall_mem_cons.2 ⟨fits_closingLine hnodup hlength, ih hnodup hlength⟩⟩⟩

/-- A sample of a type below open records: the block of a record that is opened, or one line. -/
inductive Drawn [Spelling]
    (g : TypeGraph) (names : NameRegistry) (bound : Nat) (opened : List TypeId)
    (id : TypeId) : Sample → Prop
  | line {leaf : Sample.Leaf} (hleaf : Shows g names id leaf) :
      Drawn g names bound opened id (.leaf leaf)
  | block {model : String} {inner : List Field} {entries : List (String × Sample)}
      {lines : List PlacedLine} (hrecord : g.IsRecord id) (hname : names.nameOf? id = some model)
      (hclosed : id ∉ opened) (hroom : opened.length < bound) (hinner : g.allFields id = .ok inner)
      (hlines : Unfolds g names bound (id :: opened) inner lines)
      (htexts : lines.map (·.text) = Sample.entriesLines (opened.length + 1) entries) :
      Drawn g names bound opened id (.block model entries)
  | recursive {model : String} (hrecord : g.IsRecord id) (hname : names.nameOf? id = some model)
      (hopened : id ∈ opened) : Drawn g names bound opened id (.leaf (.recursive model))
  | cutOff {model : String} (hrecord : g.IsRecord id) (hname : names.nameOf? id = some model)
      (hclosed : id ∉ opened) (hfull : bound ≤ opened.length) :
      Drawn g names bound opened id (.leaf (.cutOff model))

namespace Drawn

variable {sample sample' : Sample}

theorem mono [Spelling] (h : Drawn g names bound opened id sample) (hkeeps : names.Keeps names') :
    Drawn g names' bound opened id sample := by
  cases h with
  | line hleaf => exact .line (hleaf.mono hkeeps)
  | block hrecord hname hclosed hroom hinner hlines htexts =>
    exact .block hrecord (hkeeps.kept _ _ hname) hclosed hroom hinner (hlines.mono hkeeps) htexts
  | recursive hrecord hname hopened => exact .recursive hrecord (hkeeps.kept _ _ hname) hopened
  | cutOff hrecord hname hclosed hfull =>
    exact .cutOff hrecord (hkeeps.kept _ _ hname) hclosed hfull

theorem exists_block [Spelling] (h : Drawn g names bound [] id sample) (hrecord : g.IsRecord id)
    (hroom : 0 < bound) : ∃ model entries, sample = .block model entries := by
  cases h with
  | line hleaf => exact absurd hrecord hleaf.not_isRecord
  | block => exact ⟨_, _, rfl⟩
  | recursive _ _ hopened => exact absurd hopened List.not_mem_nil
  | cutOff _ _ _ hfull => exact absurd hfull (Nat.not_le_of_lt hroom)

private theorem text_leaf [Spelling] (opened : List TypeId) (field : Field) (leaf : Sample.Leaf) :
    (fieldLine opened field (leaf.value ++ ", // " ++ leaf.note)).text =
      Sample.keyText opened.length (Naming.fieldName field.name) ++ leaf.value ++ "," ++
        Sample.noteMark ++ leaf.note := by
  have hmark : ", // " = "," ++ Sample.noteMark := by decide
  simp only [fieldLine, Sample.keyText, hmark, String.append_assoc]

private theorem text_open [Spelling] (opened : List TypeId) (field : Field) (model : String) :
    (fieldLine opened field ("\x7b // Model " ++ model)).text =
      Sample.keyText opened.length (Naming.fieldName field.name) ++ "\x7b" ++ Sample.noteMark ++
        Sample.modelNote model := by
  have hmark : "\x7b // Model " = "\x7b" ++ Sample.noteMark ++ "Model " := by decide
  simp only [fieldLine, Sample.keyText, Sample.modelNote, hmark, String.append_assoc]

private theorem empty_record (model reason : String) : "\x7b\x7d, // Model " ++ model ++ reason =
    "\x7b\x7d" ++ ", // " ++ ("Model " ++ model ++ reason) := by
  have hmark : "\x7b\x7d, // Model " = "\x7b\x7d" ++ ", // " ++ "Model " := by decide
  rw [hmark]
  simp only [String.append_assoc]

theorem unfolds [Spelling] {field : Field} {rest : List PlacedLine}
    (h : Drawn g names bound opened field.type sample)
    (hrest : Unfolds g names bound opened fields rest) :
    ∃ lines, Unfolds g names bound opened (field :: fields) lines ∧ lines.map (·.text) =
      Sample.entryLines opened.length (Naming.fieldName field.name, sample) ++ rest.map (·.text) := by
  cases h with
  | @line leaf hleaf =>
    refine ⟨_, .line hleaf hrest, ?_⟩
    rw [List.map_cons, text_leaf, Sample.entryLines, List.singleton_append]
  | block hrecord hname hclosed hroom hinner hlines htexts =>
    refine ⟨_, .block hrecord hname hclosed hroom hinner hlines hrest, ?_⟩
    simp only [List.cons_append, List.map_cons, List.map_append, text_open, htexts, closingLine,
      Sample.entryLines, List.append_assoc, List.nil_append]
  | @recursive model hrecord hname hopened =>
    refine ⟨_, .recursive hrecord hname hopened hrest, ?_⟩
    have htext := text_leaf opened field (.recursive model)
    rw [List.map_cons, empty_record, Sample.entryLines, List.singleton_append, ← htext]
    rfl
  | @cutOff model hrecord hname hclosed hfull =>
    refine ⟨_, .cutOff hrecord hname hclosed hfull hrest, ?_⟩
    have htext := text_leaf opened field (.cutOff model)
    rw [List.map_cons, empty_record, Sample.entryLines, List.singleton_append, ← htext]
    rfl

end Drawn

namespace Synthesis

abbrev Draws [Spelling] (g : TypeGraph) (bound : Nat) (opened : List TypeId) (id : TypeId)
    (step : Synthesis Sample) (s : SynthesisState) : Prop :=
  Completes step s fun sample t =>
    s.registry.Keeps t.registry ∧ Drawn g t.registry bound opened id sample

private theorem entries_unfold [Spelling] {room : Nat} (name : String) (fields : List Field)
    (h : ∀ field ∈ fields, ∀ hint path t,
      Draws g bound opened field.type (sampleBelow g room opened hint path field.type) t)
    (s : SynthesisState) :
    Completes (fields.mapM (entryBelow g room opened name)) s fun entries t =>
      s.registry.Keeps t.registry ∧ ∃ lines, Unfolds g t.registry bound opened fields lines ∧
        lines.map (·.text) = Sample.entriesLines opened.length entries := by
  induction fields generalizing s with
  | nil => exact .pure ⟨.refl _, [], .nil, by simp [Sample.entriesLines]⟩
  | cons field fields ih =>
    obtain ⟨hfield, hfields⟩ := List.forall_mem_cons.1 h
    rw [List.mapM_cons]
    have hentry : Completes (entryBelow g room opened name field) s fun entry t =>
        s.registry.Keeps t.registry ∧ ∃ sample, entry = (Naming.fieldName field.name, sample) ∧
          Drawn g t.registry bound opened field.type sample :=
      .bind (hfield _ _ s) fun sample t h => .pure ⟨h.1, sample, rfl, h.2⟩
    refine .bind hentry ?_
    rintro _ t ⟨hkeeps, sample, rfl, hdrawn⟩
    refine .bind (ih hfields t) ?_
    rintro entries u ⟨hkeeps', rest, hrest, htexts⟩
    apply Ends.pure
    obtain ⟨lines, hlines, hall⟩ := (hdrawn.mono hkeeps').unfolds hrest
    exact ⟨hkeeps.trans hkeeps', lines, hlines, by rw [hall, htexts, Sample.entriesLines]⟩

/-- Every sample is the one that the graph and the names give below the open records. -/
theorem sampleBelow_drawn [Spelling]
    (hg : g.Closed) {room : Nat} (hroom : opened.length + room = bound)
    (hid : g.Has id) (hint path : String) (s : SynthesisState) :
    Draws g bound opened id (sampleBelow g room opened hint path id) s := by
  induction room using Nat.strong_induction_on generalizing opened id hint path s with
  | _ room ih =>
    by_cases hrecord : g.IsRecord id
    · by_cases hopened : id ∈ opened
      · rw [sampleBelow_recursive hrecord hopened]
        exact .bind (discover_named hid hint) fun name t ⟨hname, hkeeps⟩ =>
          .pure ⟨hkeeps, .recursive hrecord hname hopened⟩
      cases room with
      | zero =>
        rw [sampleBelow_cutOff hrecord hopened]
        exact .bind (discover_named hid hint) fun name t ⟨hname, hkeeps⟩ =>
          .pure ⟨hkeeps, .cutOff hrecord hname hopened hroom.ge⟩
      | succ room =>
        rw [sampleBelow_block hrecord hopened]
        refine .bind (discover_named hid hint) fun name t ⟨hname, hkeeps⟩ => ?_
        refine .lift_bind (hg.allFields_ok hid).eqn fun fields ⟨hfields, htypes⟩ => ?_
        -- For its fields the record is open, and there is room for one less.
        have hbelow : (id :: opened).length + room = bound := by
          rw [List.length_cons]
          omega
        have hentries := entries_unfold name fields (fun field hfield =>
          ih room (Nat.lt_succ_self room) hbelow (htypes field hfield)) t
        refine .bind hentries fun entries u ⟨hkeeps', lines, hlines, htexts⟩ => .pure ?_
        exact ⟨hkeeps.trans hkeeps', .block hrecord (hkeeps'.kept id name hname) hopened (by omega)
          hfields hlines htexts⟩
    · refine (sampleBelow_shows hg hid hrecord room opened hint path).mono ?_
      rintro _ t ⟨hkeeps, leaf, rfl, hshows⟩
      exact ⟨hkeeps, .line hshows⟩

/-- Below the root record, the lines of its sample are the only unfolding of its fields. No record
is open twice where a line stands, and no more records are than the depth limit allows. -/
theorem synthesize_unfolds [Spelling]
    (hg : g.Closed) {root : TypeId} (hroot : g.IsRecord root) (maxDepth : Nat)
    (hint : String) (s : SynthesisState) :
    ∃ lines t fields entries, synthesize g maxDepth hint root s = .ok lines t ∧
      g.allFields root = .ok fields ∧
      (∀ placed, Unfolds g t.registry (max maxDepth 1) [root] fields placed ↔ placed = entries) ∧
      lines = "\x7b" :: (entries.map (·.text) ++ ["\x7d"]) ∧
      ∀ line ∈ entries, line.Fits (max maxDepth 1) := by
  have hroom : ([] : List TypeId).length + max maxDepth 1 = max maxDepth 1 := Nat.zero_add _
  have hsample := sampleBelow_drawn hg hroom hroot.has hint hint s
  obtain ⟨tree, t, hrun, -, hdrawn⟩ := hsample.exists_ok
  -- Nothing is open yet and there is room, so that a record can only be opened.
  cases hdrawn with
  | line hleaf => exact absurd hroot hleaf.not_isRecord
  | recursive _ _ hopened => exact absurd hopened List.not_mem_nil
  | cutOff _ _ _ hfull =>
    rw [List.length_nil] at hfull
    omega
  | @block model fields tops entries hrecord hname hclosed hlength hfields hentries htexts =>
    refine ⟨_, t, fields, entries, synthesize_of_sample hrun, hfields,
      fun placed => ⟨fun h => h.unique hentries, ?_⟩, ?_,
      hentries.fits (List.nodup_singleton root) hlength⟩
    · rintro rfl
      exact hentries
    · rw [Sample.lines, htexts]
      rfl

def teamGraph : TypeGraph := .ofList [
  .record (some "Team") none [⟨"lead", ⟨1⟩⟩, ⟨"room", ⟨4⟩⟩],
  .record (some "Lead") (some ⟨2⟩) [⟨"team", ⟨0⟩⟩, ⟨"next", ⟨2⟩⟩],
  .record (some "Person") none [⟨"name", ⟨3⟩⟩],
  .scalar "string",
  .array ⟨2⟩]

attribute [local instance] Spelling.plain

theorem teamGraph_unfolds :
    teamGraph.Closed ∧ teamGraph.IsRecord ⟨0⟩ ∧
    ∃ names fields entries, teamGraph.allFields ⟨0⟩ = .ok fields ∧
      Unfolds teamGraph names 2 [⟨0⟩] fields entries ∧ (∀ line ∈ entries, line.Fits 2) ∧
      entries.map (·.text) = [
        " \"lead\": \x7b // Model Lead",
        "  \"name\": \"example\", // Scalar string",
        "  \"team\": \x7b\x7d, // Model Team (recursive reference)",
        "  \"next\": \x7b\x7d, // Model Person (depth limit reached)",
        " \x7d,",
        " \"room\": [], // Array of Person"] := by
  have hclosed : teamGraph.Closed := by decide
  have hroot : teamGraph.IsRecord ⟨0⟩ := ⟨_, rfl, rfl⟩
  obtain ⟨lines, t, fields, entries, hrun, hfields, hunfolds, hlines, hfits⟩ :=
    synthesize_unfolds hclosed hroot 2 "Body" .initial
  have hprinted : (synthesize teamGraph 2 "Body" ⟨0⟩).run' .initial = some [
      "\x7b",
      " \"lead\": \x7b // Model Lead",
      "  \"name\": \"example\", // Scalar string",
      "  \"team\": \x7b\x7d, // Model Team (recursive reference)",
      "  \"next\": \x7b\x7d, // Model Person (depth limit reached)",
      " \x7d,",
      " \"room\": [], // Array of Person",
      "\x7d"] := by
    decide +kernel
  rw [run'_of_ok hrun, hlines] at hprinted
  refine ⟨hclosed, hroot, _, fields, entries, hfields, (hunfolds entries).2 rfl, hfits, ?_⟩
  exact List.append_cancel_right (List.cons.inj (Option.some.inj hprinted)).2

end Synthesis

end RequestDocs
