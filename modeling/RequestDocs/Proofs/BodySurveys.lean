import RequestDocs.Proofs.Announcements
/-!
# Surveys of bodies

What the body section of a document comes to whatever names are in use. Each of its lines has a fixed
start, which only a note may follow.
-/

namespace RequestDocs

/-- The text of a line up to its note, and whether it has one. -/
structure LineStart where
  text : String
  noted : Bool

def LineStart.Begins (start : LineStart) (line : String) : Prop :=
  if start.noted then ∃ note, line = start.text ++ Sample.noteMark ++ note else line = start.text

namespace Outline

mutual

def entryStarts (depth : Nat) : String × Outline → List LineStart
  | (key, leaf value) => [⟨Sample.keyText depth key ++ value ++ ",", true⟩]
  | (key, block entries) =>
    ⟨Sample.keyText depth key ++ "\x7b", true⟩ ::
      (entriesStarts (depth + 1) entries ++ [⟨Sample.indent depth ++ "\x7d,", false⟩])

def entriesStarts (depth : Nat) : List (String × Outline) → List LineStart
  | [] => []
  | entry :: entries => entryStarts depth entry ++ entriesStarts depth entries

end

def starts : Outline → List LineStart
  | leaf value => [⟨value, true⟩]
  | block entries => ⟨"\x7b", false⟩ :: (entriesStarts 1 entries ++ [⟨"\x7d", false⟩])

end Outline

theorem LineStart.Begins.note (text note : String) :
    Begins ⟨text, true⟩ (text ++ Sample.noteMark ++ note) := ⟨note, rfl⟩

theorem LineStart.Begins.plain (text : String) : Begins ⟨text, false⟩ text := rfl

namespace Sample

mutual

private theorem entryLines_begin (depth : Nat) (key : String) : (sample : Sample) →
    List.Forall₂ LineStart.Begins (Outline.entryStarts depth (key, sample.outline))
      (entryLines depth (key, sample))
  | leaf l => by
    simp only [outline, Outline.entryStarts, entryLines]
    exact .cons (.note _ _) .nil
  | block model entries => by
    simp only [outline, Outline.entryStarts, entryLines]
    refine .cons (.note _ _) (List.rel_append ?_ (.cons (.plain _) .nil))
    exact entriesLines_begin (depth + 1) entries

private theorem entriesLines_begin (depth : Nat) : (entries : List (String × Sample)) →
    List.Forall₂ LineStart.Begins (Outline.entriesStarts depth (outlineEntries entries))
      (entriesLines depth entries)
  | [] => by simp only [outlineEntries, Outline.entriesStarts, entriesLines, List.Forall₂.nil]
  | (key, sample) :: entries => by
    simp only [outlineEntries, Outline.entriesStarts, entriesLines]
    exact List.rel_append (entryLines_begin depth key sample) (entriesLines_begin depth entries)

end

theorem lines_begin (sample : Sample) :
    List.Forall₂ LineStart.Begins sample.outline.starts sample.lines := by
  cases sample with
  | leaf l =>
    simp only [outline, Outline.starts, lines]
    exact .cons (.note _ _) .nil
  | block model entries =>
    simp only [outline, Outline.starts, lines]
    refine .cons (.plain _) (List.rel_append ?_ (.cons (.plain _) .nil))
    exact entriesLines_begin 1 entries

end Sample

namespace Synthesis

variable {g : TypeGraph}

theorem synthesize_behaves [Spelling]
    (hg : g.Closed) (maxDepth : Nat) {root : TypeId} (hroot : g.Has root) :
    Succeeds (survey g maxDepth root) fun survey => ∀ hint,
      Behaves (synthesize g maxDepth hint root) survey.announced survey.issues
        fun lines => List.Forall₂ LineStart.Begins survey.outline.starts lines := by
  refine (sampleBelow_behaves hg _ [] hroot).mono fun survey h hint => ?_
  refine .map (h hint hint) fun sample houtline => ?_
  rw [← houtline]
  exact sample.lines_begin

end Synthesis

structure BodySurvey where
  starts : List LineStart
  status : BodyStatus
  announced : List TypeId
  issues : List Issue.Kind

namespace Operation

/-- The type whose sample is the body of the document, when it has one. -/
def sampledType? (op : Operation) : Option TypeId :=
  if op.effectiveVerb.carriesPayload then
    op.body.bind fun body =>
      if body.kind = .single ∧ isJsonContentType body.primaryContentType then some body.type else none
  else none

def placeholder (op : Operation) : List String × BodyStatus :=
  if op.effectiveVerb.carriesPayload then
    match op.body with
    | none => ([noBodyModel], .missing)
    | some body =>
      if body.kind ≠ .single then ([unsupportedBody], .unsupported body.kind)
      else ([nonJsonBody body.primaryContentType], .nonJson body.primaryContentType)
  else ([noBodyAllowed], .notApplicable)

theorem bodySection_of_sampledType [Spelling]
    {op : Operation} {root : TypeId} (h : op.sampledType? = some root)
    (g : TypeGraph) (maxDepth : Nat) : op.bodySection g maxDepth = do
      return (← Synthesis.synthesize g maxDepth op.bodyHint root, .synthesized) := by
  unfold sampledType? at h
  split at h
  · next hpayload =>
    obtain ⟨body, hbody, h⟩ := Option.bind_eq_some_iff.1 h
    split at h
    · next hsingle =>
      cases h
      simp [bodySection, hpayload, synthesizeBody, hbody, hsingle]
    · cases h
  · cases h

theorem bodySection_of_placeholder [Spelling]
    {op : Operation} (h : op.sampledType? = none) (g : TypeGraph)
    (maxDepth : Nat) : op.bodySection g maxDepth = pure op.placeholder := by
  unfold sampledType? at h
  unfold bodySection placeholder
  split at h
  · next hpayload =>
    simp only [hpayload, if_true]
    cases hbody : op.body with
    | none => rfl
    | some body =>
      simp only [hbody, Option.bind_some, ite_eq_right_iff, reduceCtorEq, imp_false, not_and] at h
      by_cases hsingle : body.kind = .single
      · simp [synthesizeBody, hsingle, h hsingle]
      · simp [synthesizeBody, hsingle]
  · next hpayload => simp [hpayload]

/-- The survey of the body section: of a sample, or of a placeholder. -/
def survey [Spelling] (op : Operation) (g : TypeGraph) (maxDepth : Nat) : Except Fault BodySurvey :=
  match op.sampledType? with
  | some root => do
    let survey ← Synthesis.survey g maxDepth root
    return ⟨survey.outline.starts, .synthesized, survey.announced, survey.issues⟩
  | none => return ⟨op.placeholder.1.map (⟨·, false⟩), op.placeholder.2, [], []⟩

theorem has_of_sampledType {op : Operation} {g : TypeGraph} (hbody : ∀ b ∈ op.body, g.Has b.type)
    {root : TypeId} (h : op.sampledType? = some root) : g.Has root := by
  unfold sampledType? at h
  split at h
  · obtain ⟨body, hmem, h⟩ := Option.bind_eq_some_iff.1 h
    split at h
    · cases h
      exact hbody body hmem
    · cases h
  · cases h

/-- The body section does not depend on what has been named, queued and reported before, except for
the notes of its lines. -/
theorem bodySection_behaves [Spelling] {g : TypeGraph} (hg : g.Closed) (op : Operation)
    (hbody : ∀ b ∈ op.body, g.Has b.type) (maxDepth : Nat) :
    Succeeds (op.survey g maxDepth) fun survey =>
      Synthesis.Behaves (op.bodySection g maxDepth) survey.announced survey.issues fun body =>
        List.Forall₂ LineStart.Begins survey.starts body.1 ∧ body.2 = survey.status := by
  unfold survey
  split
  · next root hroot =>
    rw [bodySection_of_sampledType hroot]
    have hsynthesis := Synthesis.synthesize_behaves hg maxDepth (has_of_sampledType hbody hroot)
    refine .bind hsynthesis fun survey hsurvey => .pure ?_
    exact .map (hsurvey op.bodyHint) fun lines hlines => ⟨hlines, rfl⟩
  · next hnone =>
    rw [bodySection_of_placeholder hnone]
    refine .pure (.pure ⟨?_, rfl⟩)
    induction op.placeholder.1 with
    | nil => exact .nil
    | cons line lines ih => exact .cons (.plain line) ih

def Samples (op : Operation) (g : TypeGraph) (r : TypeId) : Prop :=
  ∃ root ∈ op.sampledType?, Synthesis.Direct g root r

theorem survey_announced [Spelling] {g : TypeGraph} (hg : g.Closed) (op : Operation)
    (hbody : ∀ b ∈ op.body, g.Has b.type) (maxDepth : Nat) :
    Succeeds (op.survey g maxDepth) fun survey =>
      (∀ r, op.Samples g r → r ∈ survey.announced) ∧
      ∀ x ∈ survey.announced, ∃ r, op.Samples g r ∧ Relation.ReflTransGen g.Nests r x := by
  unfold survey
  split
  · next root hroot =>
    have hid : g.Has root := has_of_sampledType hbody hroot
    refine .bind (Synthesis.surveyBelow_announced hg (max maxDepth 1) [] hid) fun survey hsurvey => ?_
    refine .pure ⟨?_, fun x hx => ?_⟩
    · rintro r ⟨root', hroot', hdirect⟩
      cases hroot.symm.trans hroot'
      exact hsurvey.direct r hdirect
    · obtain ⟨r, hdirect, hpath⟩ := hsurvey.nested x hx
      exact ⟨r, ⟨root, hroot, hdirect⟩, hpath⟩
  · next hnone => exact .pure ⟨by simp [Samples, hnone], by simp⟩

def document (op : Operation) (options : DocumentOptions) (lines : List String)
    (status : BodyStatus) : RequestDocument where
  operation := op.name
  stem := op.documentStem
  contents := String.intercalate "\n" ((op.draft options).head op.name ++ lines)
  bodyStatus := status
  templateError := checkTemplate op.writtenPath

theorem document_contents (op : Operation) (options : DocumentOptions) (lines : List String)
    (status : BodyStatus) : (op.document options lines status).contents =
      String.intercalate "\n" ((op.draft options).head op.name ++ lines) := by
  simp only [document]

theorem assemble_eq [Spelling] (op : Operation) (g : TypeGraph) (options : AssemblyOptions) :
    assemble g options op = do
      let body ← op.bodySection g options.maxDepth
      return op.document options.document body.1 body.2 := rfl

/-- What assembling an operation announces and reports is that of its body section, and its document
has the lines of the section. -/
theorem assemble_behaves [Spelling]
    {g : TypeGraph} (hg : g.Closed) (options : AssemblyOptions) (op : Operation)
    (hbody : ∀ b ∈ op.body, g.Has b.type) : Succeeds (op.survey g options.maxDepth) fun survey =>
      Synthesis.Behaves (assemble g options op) survey.announced survey.issues fun document =>
        ∃ lines, List.Forall₂ LineStart.Begins survey.starts lines ∧
          document = op.document options.document lines survey.status := by
  refine (op.bodySection_behaves hg hbody options.maxDepth).mono fun survey hsection => ?_
  rw [op.assemble_eq]
  exact .map hsection fun body ⟨hlines, hstatus⟩ => ⟨body.1, hlines, by rw [hstatus]⟩

end Operation

end RequestDocs
