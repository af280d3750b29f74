import RequestDocs.Proofs.PrintedSamples
/-!
# Reported issues

A line of a sample stands for an issue when its value stands in for a scalar without a sample of its
own or for a union without a literal variant. The issues of a sample are those of its lines, in order.
-/

namespace RequestDocs

/-- A line of a sample with the issue that it stands for, if any. -/
structure ReportedLine where
  text : String
  issue? : Option Issue

/-- No value says what the type is: a scalar outside the table, or a union without a literal among its
variants. -/
inductive TypeGraph.Degraded (g : TypeGraph) (id : TypeId) : Prop
  | scalar {name : String} (hnode : g.get id = .ok (.scalar name))
      (hname : Sample.scalar? name = none)
  | union {name : Option String} {variants : List TypeId}
      (hnode : g.get id = .ok (.union name variants))
      (hliteral : ∀ variant ∈ variants, ∀ value, g.get variant ≠ .ok (.literal value))

/-- The one line of a type other than a record, and the issue of the type at the path. -/
inductive Reports (g : TypeGraph) (names : NameRegistry) (path : String) (id : TypeId) :
    Sample.Leaf → Option Issue → Prop
  | faithful {leaf : Sample.Leaf} (hleaf : Shows g names id leaf) (hfaithful : ¬g.Degraded id) :
      Reports g names path id leaf none
  | scalar {name : String} (hnode : g.get id = .ok (.scalar name))
      (hname : Sample.scalar? name = none) :
      Reports g names path id (.scalar name) (some (.unmappedScalar path name))
  | union {name : Option String} {variants : List TypeId} {labels : List String}
      (hnode : g.get id = .ok (.union name variants))
      (hlabels : List.Forall₂ (Reads g names) variants labels)
      (hliteral : ∀ variant ∈ variants, ∀ value, g.get variant ≠ .ok (.literal value)) :
      Reports g names path id (.union labels none)
        (some (.unrepresentableUnion path (Sample.alternatives labels)))

def ReportedLine.ofField [Spelling]
    (depth : Nat) (field : Field) (leaf : Sample.Leaf) (issue? : Option Issue) :
    ReportedLine where
  text := Sample.keyText depth (Naming.fieldName field.name) ++ leaf.value ++ "," ++
    Sample.noteMark ++ leaf.note
  issue? := issue?

inductive FieldReports [Spelling] (g : TypeGraph) (names : NameRegistry) :
    (depth : Nat) → (model : String) → List Field → List ReportedLine → Prop
  | nil {depth : Nat} {model : String} : FieldReports g names depth model [] []
  | line {depth : Nat} {model : String} {field : Field} {leaf : Sample.Leaf} {issue? : Option Issue}
      {fields : List Field} {rest : List ReportedLine}
      (hline : Reports g names (model ++ "." ++ field.name) field.type leaf issue?)
      (hrest : FieldReports g names depth model fields rest) :
      FieldReports g names depth model (field :: fields) (.ofField depth field leaf issue? :: rest)
  /-- A record inside itself or at the depth limit has no issue, whatever its fields are. -/
  | unopened {depth : Nat} {model inner : String} {field : Field} {leaf : Sample.Leaf}
      {fields : List Field} {rest : List ReportedLine} (hrecord : g.IsRecord field.type)
      (hname : names.nameOf? field.type = some inner)
      (hleaf : leaf = .recursive inner ∨ leaf = .cutOff inner)
      (hrest : FieldReports g names depth model fields rest) :
      FieldReports g names depth model (field :: fields) (.ofField depth field leaf none :: rest)
  | block {depth : Nat} {model inner : String} {field : Field} {innerFields fields : List Field}
      {entries rest : List ReportedLine} (hrecord : g.IsRecord field.type)
      (hname : names.nameOf? field.type = some inner)
      (hinner : g.allFields field.type = .ok innerFields)
      (hentries : FieldReports g names (depth + 1) inner innerFields entries)
      (hrest : FieldReports g names depth model fields rest) :
      FieldReports g names depth model (field :: fields)
        (⟨Sample.keyText depth (Naming.fieldName field.name) ++ "\x7b" ++ Sample.noteMark ++
            Sample.modelNote inner, none⟩ :: entries ++
          ⟨Sample.indent depth ++ "\x7d,", none⟩ :: rest)

inductive RootReports [Spelling]
    (g : TypeGraph) (names : NameRegistry) (hint : String) (root : TypeId) :
    List ReportedLine → Prop
  | line {leaf : Sample.Leaf} {issue? : Option Issue} (hline : Reports g names hint root leaf issue?) :
      RootReports g names hint root [⟨leaf.value ++ Sample.noteMark ++ leaf.note, issue?⟩]
  | block {model : String} {fields : List Field} {entries : List ReportedLine}
      (hrecord : g.IsRecord root) (hname : names.nameOf? root = some model)
      (hfields : g.allFields root = .ok fields) (hentries : FieldReports g names 1 model fields entries) :
      RootReports g names hint root (⟨"\x7b", none⟩ :: entries ++ [⟨"\x7d", none⟩])

variable {g : TypeGraph} {names names' : NameRegistry} {id : TypeId} {path model : String}
  {depth : Nat} {fields : List Field} {lines : List ReportedLine}

theorem Reports.mono {leaf : Sample.Leaf} {issue? : Option Issue}
    (h : Reports g names path id leaf issue?) (hkeeps : names.Keeps names') :
    Reports g names' path id leaf issue? := by
  cases h with
  | faithful hleaf hfaithful => exact .faithful (hleaf.mono hkeeps) hfaithful
  | scalar hnode hname => exact .scalar hnode hname
  | union hnode hlabels hliteral =>
    exact .union hnode (hlabels.imp fun _ _ h => h.mono hkeeps) hliteral

theorem FieldReports.mono [Spelling] (h : FieldReports g names depth model fields lines)
    (hkeeps : names.Keeps names') : FieldReports g names' depth model fields lines := by
  induction h with
  | nil => exact .nil
  | line hline _ ih => exact .line (hline.mono hkeeps) ih
  | unopened hrecord hname hleaf _ ih =>
    exact .unopened hrecord (hkeeps.kept _ _ hname) hleaf ih
  | block hrecord hname hinner _ _ ihentries ih =>
    exact .block hrecord (hkeeps.kept _ _ hname) hinner ihentries ih

/-- The issue that a line stands for, read off from what it shows. -/
def Sample.Leaf.issue? (path : String) : Sample.Leaf → Option Issue
  | scalar name => if (Sample.scalar? name).isNone then some (.unmappedScalar path name) else none
  | union labels none => some (.unrepresentableUnion path (alternatives labels))
  | _ => none

theorem Synthesis.firstLiteral_none_iff {variants : List TypeId} {direct : Option Json}
    (h : firstLiteral? g variants = .ok direct) :
    direct = none ↔ ∀ variant ∈ variants, ∀ value, g.get variant ≠ .ok (.literal value) := by
  induction variants with
  | nil =>
    cases h
    simp
  | cons v vs ih =>
    rw [firstLiteral?] at h
    rw [List.forall_mem_cons]
    cases hnode : g.get v with
    | error fault =>
      rw [hnode] at h
      cases h
    | ok node =>
      rw [hnode] at h
      cases node with
      | literal value =>
        cases h
        simp
      | scalar | record | union | array | unknown => simpa using ih h

theorem Shows.reports {leaf : Sample.Leaf} (h : Shows g names id leaf) (path : String) :
    Reports g names path id leaf (leaf.issue? path) := by
  have hleaf := h
  cases h with
  | @scalar name hnode =>
    cases hname : Sample.scalar? name with
    | none =>
      rw [Sample.Leaf.issue?, hname]
      exact .scalar hnode hname
    | some value =>
      rw [Sample.Leaf.issue?, hname]
      refine .faithful hleaf ?_
      rintro (⟨hnode', hname'⟩ | ⟨hnode', -⟩) <;> cases hnode.symm.trans hnode'
      cases hname.symm.trans hname'
  | @union _ _ labels direct hnode hlabels hdirect =>
    have hliteral := Synthesis.firstLiteral_none_iff hdirect
    cases direct with
    | none => exact .union hnode hlabels (hliteral.1 rfl)
    | some value =>
      refine .faithful hleaf ?_
      rintro (⟨hnode', -⟩ | ⟨hnode', hliteral'⟩) <;> cases hnode.symm.trans hnode'
      cases hliteral.2 hliteral'
  | literal hnode | array hnode | unknown hnode =>
    refine .faithful hleaf ?_
    rintro (⟨hnode', -⟩ | ⟨hnode', -⟩) <;> cases hnode.symm.trans hnode'

namespace Synthesis

variable {s : SynthesisState}

abbrev Silent {α : Type} (step : Synthesis α) (s : SynthesisState) : Prop :=
  Ends (fun _ => True) step s fun _ t => t.issues = s.issues

private theorem discover_silent [Spelling] (id : TypeId) (hint : String) (s : SynthesisState) :
    Silent (discover g id hint) s := by
  refine .get_bind (.lift_cases (fun _ _ => trivial) fun (name, registry) _ => ?_)
  exact .bind (M := fun _ t => t.issues = s.issues) (.set rfl) fun _ _ ht => .pure ht

private theorem discoverIfRecord_silent [Spelling]
    (id : TypeId) (hint : String) (s : SynthesisState) :
    Silent (discoverIfRecord g id hint) s := by
  refine .lift_cases (fun _ _ => trivial) fun node _ => ?_
  split
  · exact .bind (discover_silent id hint s) fun _ _ ht => .pure ht
  · exact .pure rfl

private theorem discoverVariants_silent [Spelling]
    (hint : String) (place : Nat) (variants : List TypeId)
    (s : SynthesisState) : Silent (discoverVariants g hint place variants) s := by
  induction variants generalizing place s with
  | nil => exact .pure rfl
  | cons v vs ih =>
    exact .bind (discoverIfRecord_silent v _ s) fun _ t ht => (ih _ t).mono fun _ _ hu => hu.trans ht

private theorem label_silent (id : TypeId) (s : SynthesisState) : Silent (label g id) s := by
  have hlift (x : Except Fault String) : Silent (liftFault x) s := by
    cases x with
    | ok text => exact .pure rfl
    | error fault => trivial
  refine .get_bind ?_
  split
  · refine .lift_cases (fun _ _ => trivial) fun node _ => ?_
    split
    · exact .pure rfl
    · exact hlift _
  · exact hlift _

abbrev ReportsLine (path : String) (step : Synthesis Sample) (s : SynthesisState) : Prop :=
  Ends (fun _ => True) step s fun sample t => ∃ leaf, sample = .leaf leaf ∧
    t.issues = s.issues ++ (leaf.issue? path).toList

private theorem scalarSample_issue (path name : String) :
    ReportsLine path (scalarSample path name) s := by
  unfold scalarSample
  split
  · next hname =>
    refine .bind (M := fun _ t => t.issues = s.issues ++ [.unmappedScalar path name]) (.modify rfl)
      fun _ t ht => .pure ⟨_, rfl, ?_⟩
    rw [ht, Sample.Leaf.issue?, if_pos hname, Option.toList_some]
  · next hname =>
    refine .pure ⟨_, rfl, ?_⟩
    rw [Sample.Leaf.issue?, if_neg hname, Option.toList_none, List.append_nil]

private theorem unionSample_issue [Spelling] (hint path : String) (variants : List TypeId) :
    ReportsLine path (unionSample g hint path variants) s := by
  refine .bind (discoverVariants_silent hint 1 variants s) fun _ t ht => ?_
  have hlabels : Silent (variants.mapM (label g)) t :=
    .mapM_keeps variants t rfl fun v _ u hu => (label_silent v u).mono fun _ _ hw => hw.trans hu
  refine .bind hlabels fun labels u hu => .lift_cases (fun _ _ => trivial) fun literal _ => ?_
  have hsame : u.issues = s.issues := hu.trans ht
  cases literal with
  | some value => exact .pure ⟨_, rfl, hsame.trans (List.append_nil _).symm⟩
  | none =>
    let issue := Issue.unrepresentableUnion path (Sample.alternatives labels)
    refine .bind (M := fun _ w => w.issues = u.issues ++ [issue]) (.modify rfl) fun _ w hw => ?_
    exact .pure ⟨_, rfl, hw.trans (by rw [hsame]; rfl)⟩

private theorem arraySample_issue [Spelling] (hint path : String) (element : TypeId) :
    ReportsLine path (arraySample g hint element) s := by
  refine .bind (discoverIfRecord_silent element _ s) fun _ t ht => ?_
  refine .bind (label_silent element t) fun text u hu => .pure ⟨_, rfl, ?_⟩
  exact (hu.trans ht).trans (List.append_nil _).symm

private theorem sampleBelow_issue [Spelling]
    (hother : ¬g.IsRecord id) (room : Nat) (above : List TypeId)
    (hint path : String) (s : SynthesisState) :
    ReportsLine path (sampleBelow g room above hint path id) s := by
  unfold sampleBelow
  refine .lift_cases (fun _ _ => trivial) fun node hnode => ?_
  cases node with
  | scalar name => exact scalarSample_issue path name
  | literal value | unknown kind => exact .pure ⟨_, rfl, (List.append_nil _).symm⟩
  | union name variants => exact unionSample_issue hint path variants
  | array element => exact arraySample_issue hint path element
  | record name base fields => exact absurd ⟨_, hnode, rfl⟩ hother

inductive Reported [Spelling]
    (g : TypeGraph) (names : NameRegistry) (depth : Nat) (path : String) (id : TypeId) :
    Sample → List Issue → Prop
  | line {leaf : Sample.Leaf} {issue? : Option Issue} (hline : Reports g names path id leaf issue?) :
      Reported g names depth path id (.leaf leaf) issue?.toList
  | unopened {inner : String} {leaf : Sample.Leaf} (hrecord : g.IsRecord id)
      (hname : names.nameOf? id = some inner) (hleaf : leaf = .recursive inner ∨ leaf = .cutOff inner) :
      Reported g names depth path id (.leaf leaf) []
  | block {inner : String} {innerFields : List Field} {entries : List (String × Sample)}
      {lines : List ReportedLine} (hrecord : g.IsRecord id) (hname : names.nameOf? id = some inner)
      (hinner : g.allFields id = .ok innerFields)
      (hlines : FieldReports g names (depth + 1) inner innerFields lines)
      (htexts : lines.map (·.text) = Sample.entriesLines (depth + 1) entries) :
      Reported g names depth path id (.block inner entries) (lines.filterMap (·.issue?))

namespace Reported

variable {sample : Sample} {issues : List Issue}

theorem mono [Spelling]
    (h : Reported g names depth path id sample issues) (hkeeps : names.Keeps names') :
    Reported g names' depth path id sample issues := by
  cases h with
  | line hline => exact .line (hline.mono hkeeps)
  | unopened hrecord hname hleaf => exact .unopened hrecord (hkeeps.kept _ _ hname) hleaf
  | block hrecord hname hinner hlines htexts =>
    exact .block hrecord (hkeeps.kept _ _ hname) hinner (hlines.mono hkeeps) htexts

theorem fieldReports [Spelling] {field : Field} {rest : List ReportedLine}
    (h : Reported g names depth (model ++ "." ++ field.name) field.type sample issues)
    (hrest : FieldReports g names depth model fields rest) :
    ∃ lines, FieldReports g names depth model (field :: fields) lines ∧
      lines.map (·.text) = Sample.entryLines depth (Naming.fieldName field.name, sample) ++
        rest.map (·.text) ∧
      lines.filterMap (·.issue?) = issues ++ rest.filterMap (·.issue?) := by
  cases h with
  | @line leaf issue? hline =>
    refine ⟨_, .line hline hrest, ?_, ?_⟩
    · rw [List.map_cons, Sample.entryLines, List.singleton_append]
      rfl
    · cases issue? <;> rfl
  | unopened hrecord hname hleaf =>
    refine ⟨_, .unopened hrecord hname hleaf hrest, ?_, rfl⟩
    rw [List.map_cons, Sample.entryLines, List.singleton_append]
    rfl
  | block hrecord hname hinner hlines htexts =>
    refine ⟨_, .block hrecord hname hinner hlines hrest, ?_, ?_⟩
    · simp [Sample.entryLines, htexts]
    · simp

end Reported

abbrev ReportsSample [Spelling] (g : TypeGraph) (depth : Nat) (path : String) (id : TypeId)
    (step : Synthesis Sample) (s : SynthesisState) : Prop :=
  Completes step s fun sample t => s.registry.Keeps t.registry ∧
    ∃ issues, Reported g t.registry depth path id sample issues ∧ t.issues = s.issues ++ issues

private theorem entries_reported [Spelling] {room : Nat} {above : List TypeId} (model : String)
    (fields : List Field)
    (h : ∀ field ∈ fields, ∀ hint path t,
      ReportsSample g depth path field.type (sampleBelow g room above hint path field.type) t)
    (s : SynthesisState) :
    Completes (fields.mapM (entryBelow g room above model)) s fun entries t =>
      s.registry.Keeps t.registry ∧ ∃ lines, FieldReports g t.registry depth model fields lines ∧
        lines.map (·.text) = Sample.entriesLines depth entries ∧
        t.issues = s.issues ++ lines.filterMap (·.issue?) := by
  induction fields generalizing s with
  | nil => exact .pure ⟨.refl _, [], .nil, by simp [Sample.entriesLines], by simp⟩
  | cons field fields ih =>
    obtain ⟨hfield, hfields⟩ := List.forall_mem_cons.1 h
    rw [List.mapM_cons]
    have hentry : Completes (entryBelow g room above model field) s fun entry t =>
        s.registry.Keeps t.registry ∧ ∃ sample issues, entry = (Naming.fieldName field.name, sample) ∧
          Reported g t.registry depth (model ++ "." ++ field.name) field.type sample issues ∧
          t.issues = s.issues ++ issues :=
      .bind (hfield _ _ s) fun sample t ⟨hkeeps, issues, h⟩ =>
        .pure ⟨hkeeps, sample, issues, rfl, h⟩
    refine .bind hentry ?_
    rintro _ t ⟨hkeeps, sample, issues, rfl, hreported, hissues⟩
    refine .bind (ih hfields t) ?_
    rintro entries u ⟨hkeeps', rest, hrest, htexts, hissues'⟩
    apply Ends.pure
    obtain ⟨lines, hlines, hall, hboth⟩ := (hreported.mono hkeeps').fieldReports hrest
    refine ⟨hkeeps.trans hkeeps', lines, hlines, ?_, ?_⟩
    · rw [hall, htexts, Sample.entriesLines]
    · rw [hissues', hissues, hboth, List.append_assoc]

private theorem sampleBelow_reported [Spelling] (hg : g.Closed) (hid : g.Has id) (room depth : Nat)
    (above : List TypeId) (hint path : String) (s : SynthesisState) :
    ReportsSample g depth path id (sampleBelow g room above hint path id) s := by
  induction room using Nat.strong_induction_on generalizing depth above id hint path s with
  | _ room ih =>
    by_cases hrecord : g.IsRecord id
    · have hdiscover := (discover_named hid hint).and (discover_silent (g := g) id hint s)
      by_cases habove : id ∈ above
      · rw [sampleBelow_recursive hrecord habove]
        exact .bind hdiscover fun name t ⟨⟨hname, hkeeps⟩, hsame⟩ =>
          .pure ⟨hkeeps, [], .unopened hrecord hname (.inl rfl), by simp [hsame]⟩
      cases room with
      | zero =>
        rw [sampleBelow_cutOff hrecord habove]
        exact .bind hdiscover fun name t ⟨⟨hname, hkeeps⟩, hsame⟩ =>
          .pure ⟨hkeeps, [], .unopened hrecord hname (.inr rfl), by simp [hsame]⟩
      | succ room =>
        rw [sampleBelow_block hrecord habove]
        refine .bind hdiscover fun name t ⟨⟨hname, hkeeps⟩, hsame⟩ => ?_
        refine .lift_bind (hg.allFields_ok hid).eqn fun fields ⟨hfields, htypes⟩ => ?_
        have hentries := entries_reported name fields (fun field hfield =>
          ih room (Nat.lt_succ_self room) (htypes field hfield) (depth + 1) (id :: above)) t
        refine .bind hentries fun entries u ⟨hkeeps', lines, hlines, htexts, hissues⟩ => .pure ?_
        exact ⟨hkeeps.trans hkeeps', _,
          .block hrecord (hkeeps'.kept id name hname) hfields hlines htexts, by rw [hissues, hsame]⟩
    · refine ((sampleBelow_shows hg hid hrecord room above hint path).and
        (sampleBelow_issue hrecord room above hint path s)).mono ?_
      rintro _ t ⟨⟨hkeeps, leaf, rfl, hshows⟩, leaf', hleaf, hissues⟩
      cases hleaf
      exact ⟨hkeeps, _, .line (hshows.reports path), hissues⟩

/-- The issues of a sample are those of its lines, each once and in order. Every line of a degraded
type has one, whose path is that of the field in its record, or the hint for a root; no other line
has any. -/
theorem synthesize_reports [Spelling]
    (hg : g.Closed) {root : TypeId} (hroot : g.Has root) (maxDepth : Nat)
    (hint : String) (s : SynthesisState) :
    ∃ lines t, synthesize g maxDepth hint root s = .ok (lines.map ReportedLine.text) t ∧
      RootReports g t.registry hint root lines ∧
      t.issues = s.issues ++ lines.filterMap ReportedLine.issue? := by
  have hsample := sampleBelow_reported hg hroot (max maxDepth 1) 0 [] hint hint s
  obtain ⟨tree, t, hrun, -, issues, hreported, hissues⟩ := hsample.exists_ok
  cases hreported with
  | @line leaf issue? hline =>
    let line : ReportedLine := ⟨leaf.value ++ Sample.noteMark ++ leaf.note, issue?⟩
    refine ⟨[line], t, synthesize_of_sample hrun, .line hline, ?_⟩
    cases issue? <;> exact hissues
  | block hrecord hname hfields hlines htexts =>
    refine ⟨_, t, ?_, .block hrecord hname hfields hlines, ?_⟩
    · rw [synthesize_of_sample hrun, Sample.lines]
      simp [htexts]
    · simpa using hissues
  | unopened hrecord =>
    have hroom : ([] : List TypeId).length + max maxDepth 1 = max maxDepth 1 := Nat.zero_add _
    have hdrawn := (sampleBelow_drawn hg hroom hroot hint hint s).of_ok hrun
    obtain ⟨model, entries, hblock⟩ := hdrawn.2.exists_block hrecord (by omega)
    cases hblock

def orderGraph : TypeGraph := .ofList [
  .record (some "Order") none [⟨"placed-at", ⟨1⟩⟩, ⟨"buyer", ⟨2⟩⟩, ⟨"changes", ⟨3⟩⟩, ⟨"state", ⟨4⟩⟩],
  .scalar "instant",
  .record (some "Buyer") none [⟨"since", ⟨1⟩⟩, ⟨"last", ⟨0⟩⟩],
  .array ⟨1⟩,
  .union none [⟨1⟩, ⟨2⟩]]

attribute [local instance] Spelling.plain

theorem orderGraph_reports :
    orderGraph.Closed ∧ orderGraph.Has ⟨0⟩ ∧
    ∃ names lines, RootReports orderGraph names "Body" ⟨0⟩ lines ∧
      (lines.map ReportedLine.text, lines.filterMap ReportedLine.issue?) = ([
        "\x7b",
        " \"placedAt\": 123, // Scalar instant",
        " \"buyer\": \x7b // Model Buyer",
        "  \"since\": 123, // Scalar instant",
        "  \"last\": \x7b\x7d, // Model Order (recursive reference)",
        " \x7d,",
        " \"changes\": [], // Array of instant",
        " \"state\": null, // Union type: instant | Buyer (no literal variant)",
        "\x7d"], [
        .unmappedScalar "Order.placed-at" "instant",
        .unmappedScalar "Buyer.since" "instant",
        .unrepresentableUnion "Order.state" "instant | Buyer"]) := by
  have hclosed : orderGraph.Closed := by decide
  have hroot : orderGraph.Has ⟨0⟩ := by decide
  obtain ⟨lines, t, hrun, hlines, hissues⟩ := synthesize_reports hclosed hroot 3 "Body" .initial
  have hreported : t.issues = lines.filterMap ReportedLine.issue? := hissues
  have hend : (do
      let texts ← synthesize orderGraph 3 "Body" ⟨0⟩
      return (texts, (← get).issues)) .initial =
        .ok (lines.map ReportedLine.text, lines.filterMap ReportedLine.issue?) t := by
    rw [bind_eq_of_ok hrun, ← hreported]
    rfl
  refine ⟨hclosed, hroot, _, lines, hlines, Option.some.inj ((run'_of_ok hend).symm.trans ?_)⟩
  decide +kernel

end Synthesis

end RequestDocs
