import RequestDocs.Proofs.FilePaths
import RequestDocs.Proofs.WellFormedSamples
/-!
# Lines of samples

How the lines of a sample look one by one: a clean sample has no line breaks inside its lines, and
in the block of a record no line starts like a comment.
-/

namespace RequestDocs

namespace Text

private theorem splitWhere_line {line : String} (h : OneLine line) :
    splitWhere (· == '\n') line.toList = [line.toList] := by
  apply splitWhere_eq_singleton
  intro c hc
  simpa using ne_of_mem_of_not_mem hc h

theorem split_line {line : String} (h : OneLine line) : split '\n' line = [line] := by
  rw [split, splitOn, splitWhere_line h]
  simp

theorem split_intercalate_cons {line : String} (h : OneLine line) {lines : List String}
    (hne : lines ≠ []) : split '\n' (String.intercalate "\n" (line :: lines)) =
      line :: split '\n' (String.intercalate "\n" lines) := by
  have hjoined : (String.intercalate "\n" (line :: lines)).toList =
      line.toList ++ '\n' :: (String.intercalate "\n" lines).toList := by
    rw [String.intercalate_cons_of_ne_nil hne]
    simp
  unfold split splitOn
  rw [hjoined, splitWhere_append_cons (by simp), splitWhere_line h, List.map_append]
  simp

theorem split_intercalate {lines : List String} (hne : lines ≠ []) (h : ∀ line ∈ lines, OneLine line) :
    split '\n' (String.intercalate "\n" lines) = lines := by
  induction lines with
  | nil => exact absurd rfl hne
  | cons line lines ih =>
    obtain ⟨hline, hlines⟩ := List.forall_mem_cons.1 h
    by_cases hlast : lines = []
    · rw [hlast, String.intercalate_singleton, split_line hline]
    · rw [split_intercalate_cons hline hlast, ih hlast hlines]

end Text

namespace Sample

theorem Leaf.oneLine_value (l : Leaf) : OneLine l.value := by
  have htable : ∀ row ∈ scalarTable, OneLine row.2 := by decide
  cases l with
  | scalar name =>
    simp only [value, Sample.scalar, scalar?]
    cases hrow : scalarTable.find? fun row => row.1.contains name with
    | none => decide
    | some row => exact htable row (List.mem_of_find?_eq_some hrow)
  | literal v => exact Json.newline_not_mem_print v
  | recursive | cutOff | array | unknown => simp [value, OneLine]
  | union labels direct =>
    cases direct with
    | none => simp [value, OneLine]
    | some v => exact Json.newline_not_mem_print v

theorem oneLine_indent (depth : Nat) : OneLine (indent depth) := by
  simp [OneLine, indent]

theorem oneLine_keyText (depth : Nat) {key : String} (hkey : Json.StringBody key.toList) :
    OneLine (keyText depth key) :=
  .append (.append (.append (oneLine_indent depth) (by decide)) hkey.newline_not_mem) (by decide)

mutual

private theorem oneLine_entryLines (depth : Nat) {key : String} (hkey : Json.StringBody key.toList) :
    (sample : Sample) → sample.Clean → ∀ line ∈ entryLines depth (key, sample), OneLine line
  | leaf l, hnote => by
    have hkeyText := oneLine_keyText depth hkey
    have hline : OneLine (keyText depth key ++ l.value ++ "," ++ noteMark ++ l.note) :=
      .append (.append (.append (hkeyText.append l.oneLine_value) (by decide)) (by decide)) hnote
    simpa [entryLines] using hline
  | block model entries, ⟨hmodel, hentries⟩ => by
    have hnote : OneLine (modelNote model) := .append (by decide) hmodel
    have hopen : OneLine (keyText depth key ++ "\x7b" ++ noteMark ++ modelNote model) :=
      .append (.append ((oneLine_keyText depth hkey).append (by decide)) (by decide)) hnote
    have hclose : OneLine (indent depth ++ "\x7d,") := (oneLine_indent depth).append (by decide)
    have hbelow := oneLine_entriesLines (depth + 1) entries hentries
    intro line hline
    simp only [entryLines, List.mem_cons, List.mem_append, List.not_mem_nil, or_false] at hline
    rcases hline with rfl | hline | rfl
    · exact hopen
    · exact hbelow line hline
    · exact hclose

private theorem oneLine_entriesLines (depth : Nat) : (entries : List (String × Sample)) →
    CleanEntries entries → ∀ line ∈ entriesLines depth entries, OneLine line
  | [], _ => by simp [entriesLines]
  | (key, sample) :: entries, ⟨⟨hkey, hsample⟩, hentries⟩ => by
    rw [entriesLines]
    exact List.forall_mem_append.2
      ⟨oneLine_entryLines depth hkey sample hsample, oneLine_entriesLines depth entries hentries⟩

end

theorem Clean.oneLine_lines {sample : Sample} (h : sample.Clean) : ∀ line ∈ sample.lines, OneLine line := by
  cases sample with
  | leaf l =>
    have hline : OneLine (l.value ++ noteMark ++ l.note) :=
      .append (l.oneLine_value.append (by decide)) h
    simpa [lines] using hline
  | block model entries =>
    have hbelow := oneLine_entriesLines 1 entries h.2
    intro line hline
    simp only [lines, List.mem_cons, List.mem_append, List.not_mem_nil, or_false] at hline
    rcases hline with rfl | hline | rfl
    · decide
    · exact hbelow line hline
    · decide

theorem head?_indent_append (depth : Nat) (s : String) :
    (indent (depth + 1) ++ s).toList.head? = some ' ' := by
  simp [indent, List.replicate_succ]

theorem head?_keyText_append (depth : Nat) (key s : String) :
    (keyText (depth + 1) key ++ s).toList.head? = some ' ' := by
  simp only [keyText, String.append_assoc]
  exact head?_indent_append depth _

mutual

private theorem head?_entryLines (depth : Nat) (key : String) : (sample : Sample) →
    ∀ line ∈ entryLines (depth + 1) (key, sample), line.toList.head? = some ' '
  | leaf l => by
    simp only [entryLines, String.append_assoc, List.forall_mem_singleton]
    exact head?_keyText_append depth key _
  | block model entries => by
    have hbelow := head?_entriesLines (depth + 1) entries
    intro line hline
    simp only [entryLines, String.append_assoc, List.mem_cons, List.mem_append, List.not_mem_nil,
      or_false] at hline
    rcases hline with rfl | hline | rfl
    · exact head?_keyText_append depth key _
    · exact hbelow line hline
    · exact head?_indent_append depth _

private theorem head?_entriesLines (depth : Nat) : (entries : List (String × Sample)) →
    ∀ line ∈ entriesLines (depth + 1) entries, line.toList.head? = some ' '
  | [] => by simp [entriesLines]
  | (key, sample) :: entries => by
    rw [entriesLines]
    exact List.forall_mem_append.2
      ⟨head?_entryLines depth key sample, head?_entriesLines depth entries⟩

end

theorem head?_block (model : String) (entries : List (String × Sample)) :
    ∀ line ∈ (block model entries).lines, line.toList.head? ≠ some '/' := by
  intro line hline
  simp only [lines, List.mem_cons, List.mem_append, List.not_mem_nil, or_false] at hline
  rcases hline with rfl | hline | rfl
  · decide
  · rw [head?_entriesLines 0 entries line hline]
    decide
  · decide

end Sample

namespace Synthesis

variable {g : TypeGraph} {id : TypeId}

private theorem surveyBelow_record [Spelling] (hg : g.Closed) (hid : g.IsRecord id) (room : Nat)
    {above : List TypeId} (habove : id ∉ above) :
    Succeeds (surveyBelow g (room + 1) above id) fun survey =>
      ∃ entries, survey.outline = .block entries := by
  obtain ⟨node, hnode, hrecord⟩ := hid
  have hhas := TypeGraph.has_of_get hnode
  unfold surveyBelow
  rw [hnode]
  cases node with
  | record name base fields =>
    change Succeeds (if id ∈ above then _ else _) _
    rw [if_neg habove]
    refine .bind (hg.allFields_ok hhas) fun fields htypes => ?_
    refine .bind (Succeeds.mapM (P := fun _ => True) fields fun field hfield => ?_) fun entries _ =>
      .pure ⟨_, rfl⟩
    exact (sampleBelow_behaves hg room (id :: above) (htypes field hfield)).bind fun _ _ => .pure trivial
  | _ => cases hrecord

theorem synthesize_record [Spelling]
    (hg : g.Closed) (hid : g.IsRecord id) (maxDepth : Nat) (hint : String) (s : SynthesisState) :
    Completes (synthesize g maxDepth hint id) s fun lines _ =>
      lines ≠ [] ∧ ∀ line ∈ lines, line.toList.head? ≠ some '/' := by
  have hroom : max maxDepth 1 = (maxDepth - 1) + 1 := by omega
  have hopens := surveyBelow_record hg hid (maxDepth - 1) (List.not_mem_nil (a := id))
  rw [← hroom] at hopens
  obtain ⟨survey, -, hbehaves, entries, hblock⟩ := (sampleBelow_behaves hg _ [] hid.has).and hopens
  refine .bind (hbehaves hint hint s) fun sample _ hmoves => .pure ?_
  have houtline := hmoves.1.trans hblock
  cases sample with
  | leaf l => cases houtline
  | block model entries => exact ⟨List.cons_ne_nil _ _, Sample.head?_block model entries⟩

theorem synthesize_oneLine [Spelling]
    (hg : g.Closed) (hid : g.Has id) (hp : g.Printable id) (maxDepth : Nat)
    (hint : String) {s : SynthesisState} (hs : s.registry.Plain) :
    Completes (synthesize g maxDepth hint id) s fun lines _ => ∀ line ∈ lines, OneLine line :=
  .bind (sampleBelow_clean hg _ [] hid hp hint hint hs) fun _ _ ⟨hclean, _⟩ =>
    .pure hclean.oneLine_lines

end Synthesis

end RequestDocs
