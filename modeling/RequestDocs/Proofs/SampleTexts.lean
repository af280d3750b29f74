import RequestDocs.Proofs.Comments
import RequestDocs.Proofs.JsonPrinting
/-!
# Texts of samples

The lines of a sample make a JSON value once comments and trailing commas are taken away, when no
note goes on to a further line and every key may stand in a string literal as it is.
-/

namespace RequestDocs

def OneLine (s : String) : Prop := '\n' ∉ s.toList

instance (s : String) : Decidable (OneLine s) := inferInstanceAs (Decidable ('\n' ∉ s.toList))

theorem OneLine.append {s t : String} (h : OneLine s) (h' : OneLine t) : OneLine (s ++ t) := by
  simpa [OneLine] using And.intro h h'

namespace Sample

open Json

theorem Leaf.isValue_value (l : Leaf) : IsValue l.value.toList := by
  cases l with
  | scalar name => exact isValue_scalar name
  | literal value => exact isValue_print value
  | recursive | cutOff => simpa [value] using IsValue.emptyObject .nil
  | union labels direct =>
    cases direct with
    | none => exact .null
    | some value => exact isValue_print value
  | array label => simpa [value] using IsValue.emptyArray .nil
  | unknown kind => exact .null

mutual

/-- All notes are single lines, and all keys may stand between quotes. -/
def Clean : Sample → Prop
  | leaf l => OneLine l.note
  | block model entries => OneLine model ∧ CleanEntries entries

def CleanEntries : List (String × Sample) → Prop
  | [] => True
  | (key, sample) :: entries => (StringBody key.toList ∧ Clean sample) ∧ CleanEntries entries

end

theorem cleanEntries_of_forall {entries : List (String × Sample)}
    (h : ∀ entry ∈ entries, StringBody entry.1.toList ∧ entry.2.Clean) : CleanEntries entries := by
  induction entries with
  | nil => trivial
  | cons entry entries ih =>
    obtain ⟨hentry, hentries⟩ := List.forall_mem_cons.1 h
    exact ⟨hentry, ih hentries⟩

def text (lines : List String) : List Char := lines.flatMap fun line => line.toList ++ ['\n']

@[simp] theorem text_nil : text [] = [] := rfl

@[simp] theorem text_cons (line : String) (lines : List String) :
    text (line :: lines) = line.toList ++ '\n' :: text lines := by simp [text]

@[simp] theorem text_append (lines lines' : List String) :
    text (lines ++ lines') = text lines ++ text lines' := by simp [text]

theorem toList_join (lines : List String) (last : String) :
    (String.intercalate "\n" (lines ++ [last])).toList = text lines ++ last.toList := by
  induction lines with
  | nil => simp
  | cons line lines ih =>
    rw [List.cons_append, String.intercalate_cons_of_ne_nil (by simp), String.toList_append, ih]
    simp

def lineEnd : Sample → List Char
  | leaf _ => " \n".toList
  | block .. => ['\n']

mutual

/-- The text of a value inside a sample without its notes. -/
def bareValue (depth : Nat) : Sample → List Char
  | leaf l => l.value.toList
  | block _ entries =>
    '\x7b' :: " \n".toList ++ bareEntries (depth + 1) entries ++ (indent depth).toList ++ ['\x7d']

def bareEntries (depth : Nat) : List (String × Sample) → List Char
  | [] => []
  | (key, sample) :: entries =>
    (keyText depth key).toList ++ bareValue depth sample ++ ',' :: lineEnd sample ++
      bareEntries depth entries

end

private theorem spaces_indent (depth : Nat) : Spaces (indent depth).toList := by
  intro c hc
  rw [indent, String.toList_ofList] at hc
  rw [List.eq_of_mem_replicate hc]
  decide

private theorem spaces_single : Spaces [' '] := by simp [Spaces, isSpace]

private theorem spaces_line : Spaces ['\n'] := by simp [Spaces, isSpace]

private theorem spaces_noted : Spaces " \n".toList := by simp [Spaces, isSpace]

private theorem spaces_lineEnd (sample : Sample) : Spaces sample.lineEnd := by
  cases sample with
  | leaf l => exact spaces_noted
  | block model entries => exact spaces_line

private theorem toList_keyText (depth : Nat) (key : String) : (keyText depth key).toList =
    (indent depth).toList ++ ('"' :: key.toList ++ '"' :: [] ++ ':' :: [' ']) := by
  simp [keyText]

section Passes

variable {pass : List Char → List Char} (hpass : Spares pass)

include hpass

private theorem keeps_keyText (depth : Nat) {key : String} (hkey : StringBody key.toList) :
    Keeps pass (keyText depth key).toList := by
  rw [toList_keyText]
  exact (hpass.spaces (spaces_indent depth)).append (hpass.key hkey .nil spaces_single)

private theorem keeps_brace : Keeps pass ['\x7b'] ∧ Keeps pass ['\x7d'] :=
  ⟨hpass.char _ (by decide), hpass.char _ (by decide)⟩

end Passes

private theorem turns_note {note : String} (h : OneLine note) :
    Turns (uncomment .outside) (noteMark.toList ++ note.toList ++ ['\n']) " \n".toList := by
  intro rest
  have hspace : '\n' ∉ '/' :: ' ' :: note.toList := by simpa [OneLine] using h
  have hskip := skipComment_line hspace rest
  simp only [List.cons_append] at hskip
  simp [noteMark, uncomment, Place.after, hskip]

private theorem keeps_comma : Keeps (uncomment .outside) [','] := by
  intro rest
  simp [uncomment, Place.after]

mutual

private theorem uncomment_entry (depth : Nat) (key : String) (hkey : StringBody key.toList) :
    (sample : Sample) → sample.Clean → Turns (uncomment .outside)
      (text (entryLines depth (key, sample)))
      ((keyText depth key).toList ++ bareValue depth sample ++ ',' :: sample.lineEnd)
  | leaf l, h => by
    -- The note goes up to the end of the line; the space before it stays.
    have hall := ((keeps_keyText uncomment_spares depth hkey).append
      (uncomment_spares.value l.isValue_value)).append (keeps_comma.append (turns_note h))
    simpa [entryLines, bareValue, lineEnd] using hall
  | block model entries, ⟨hmodel, hentries⟩ => by
    have hnote : OneLine (modelNote model) := .append (by decide) hmodel
    have hopen := (keeps_brace uncomment_spares).1.append (turns_note hnote)
    have hclose := (uncomment_spares.spaces (spaces_indent depth)).append
      ((keeps_brace uncomment_spares).2.append (keeps_comma.append
        (uncomment_spares.spaces spaces_line)))
    have hall := ((keeps_keyText uncomment_spares depth hkey).append hopen).append
      ((uncomment_entries (depth + 1) entries hentries).append hclose)
    simpa [entryLines, bareValue, lineEnd] using hall

private theorem uncomment_entries (depth : Nat) : (entries : List (String × Sample)) →
    CleanEntries entries →
      Turns (uncomment .outside) (text (entriesLines depth entries)) (bareEntries depth entries)
  | [], _ => by simpa [entriesLines, bareEntries] using Turns.nil
  | (key, sample) :: entries, ⟨⟨hkey, hsample⟩, hentries⟩ => by
    have hall := (uncomment_entry depth key hkey sample hsample).append
      (uncomment_entries depth entries hentries)
    simpa [entriesLines, bareEntries] using hall

end

private theorem closes_bareEntries (depth : Nat) (entry : String × Sample)
    (entries : List (String × Sample)) (rest : List Char) :
    closes (bareEntries depth (entry :: entries) ++ rest) = false := by
  obtain ⟨key, sample⟩ := entry
  rw [bareEntries, toList_keyText]
  simp only [List.append_assoc]
  rw [closes_append_of_spaces (spaces_indent depth)]
  exact Opens.closes ⟨_, _, rfl, by decide, by decide⟩ _

/-- Before a closing brace the text becomes members with spaces around them. -/
private structure BecomesMembers (cs : List Char) : Prop where
  closes_append (rest : List Char) : closes (cs ++ rest) = false
  dropped : ∃ a members b, Spaces a ∧ IsMembers members ∧ Spaces b ∧ ∀ rest, closes rest →
    dropCommas .outside (cs ++ rest) = a ++ members ++ b ++ dropCommas .outside rest

private theorem dropCommas_comma {rest : List Char} (h : closes rest) :
    dropCommas .outside (',' :: rest) = dropCommas .outside rest := by
  simp [dropCommas, h]

private theorem becomes_object {a cs b : List Char} (ha : Spaces a) (hb : Spaces b)
    (h : cs = [] ∨ BecomesMembers cs) : ∃ v, IsValue v ∧
      Turns (dropCommas .outside) ('\x7b' :: a ++ cs ++ b ++ ['\x7d']) v := by
  have hspares := dropCommas_spares
  have hopen := (keeps_brace hspares).1.append (hspares.spaces ha)
  have hclose := (hspares.spaces hb).append (keeps_brace hspares).2
  rcases h with rfl | ⟨-, c, members, d, hc, hmembers, hd, hdrop⟩
  · refine ⟨_, .emptyObject (ha.append hb), ?_⟩
    simpa using hopen.append hclose
  · refine ⟨_, .object (ha.append hc) hmembers (hd.append hb), fun rest => ?_⟩
    have hcloses : closes (b ++ ['\x7d'] ++ rest) := by
      rw [List.append_assoc, closes_append_of_spaces hb]
      rfl
    have hleft := hopen (cs ++ (b ++ ['\x7d'] ++ rest))
    have hright := hclose rest
    rw [hdrop _ hcloses, hright] at hleft
    simpa using hleft

mutual

private theorem dropCommas_value (depth : Nat) : (sample : Sample) → sample.Clean →
    ∃ v, IsValue v ∧ Turns (dropCommas .outside) (bareValue depth sample) v
  | leaf l, _ => ⟨_, l.isValue_value, dropCommas_spares.value l.isValue_value⟩
  | block model entries, ⟨_, hentries⟩ => by
    have hobject := becomes_object spaces_noted (spaces_indent depth)
      (dropCommas_entries (depth + 1) entries hentries)
    simpa [bareValue] using hobject

private theorem dropCommas_entries (depth : Nat) : (entries : List (String × Sample)) →
    CleanEntries entries →
      bareEntries depth entries = [] ∨ BecomesMembers (bareEntries depth entries)
  | [], _ => .inl (by simp [bareEntries])
  | (key, sample) :: entries, ⟨⟨hkey, hsample⟩, hentries⟩ => .inr <| by
    obtain ⟨v, hv, hturns⟩ := dropCommas_value depth sample hsample
    have hfirst := (keeps_keyText dropCommas_spares depth hkey).append hturns
    have hend := dropCommas_spares.spaces (spaces_lineEnd sample)
    refine ⟨closes_bareEntries depth (key, sample) entries, ?_⟩
    rcases dropCommas_entries depth entries hentries with hnone | hmore
    · -- The last entry: its comma goes.
      refine ⟨_, _, _, spaces_indent depth, .one hkey .nil spaces_single hv, spaces_lineEnd sample, ?_⟩
      intro rest hrest
      have hcloses : closes (sample.lineEnd ++ rest) := by
        rwa [closes_append_of_spaces (spaces_lineEnd sample)]
      have hleft := hfirst (',' :: (sample.lineEnd ++ rest))
      rw [dropCommas_comma hcloses, hend] at hleft
      simpa [bareEntries, hnone, toList_keyText] using hleft
    · -- Another entry follows: the comma stays.
      obtain ⟨a, members, b, ha, hmembers, hb, hdrop⟩ := hmore.dropped
      refine ⟨_, _, _, spaces_indent depth, .more hkey .nil spaces_single hv .nil
        ((spaces_lineEnd sample).append ha) hmembers, hb, fun rest hrest => ?_⟩
      have hnext : closes (sample.lineEnd ++ (bareEntries depth entries ++ rest)) = false := by
        rw [closes_append_of_spaces (spaces_lineEnd sample), hmore.closes_append]
      have hleft := hfirst (',' :: (sample.lineEnd ++ (bareEntries depth entries ++ rest)))
      rw [dropCommas_spares.comma _ hnext, hend, hdrop rest hrest] at hleft
      simpa [bareEntries, toList_keyText] using hleft

end

/-- The text of a clean sample is a JSON value apart from comments and trailing commas. -/
theorem Clean.isText {sample : Sample} (h : sample.Clean) :
    IsText (strip (String.intercalate "\n" sample.lines).toList) := by
  cases sample with
  | leaf l =>
    have hvalue := l.isValue_value
    have hnote : '\n' ∉ '/' :: ' ' :: l.note.toList := by simpa [Clean, OneLine] using h
    have hbare : uncomment .outside (l.value.toList ++ (noteMark.toList ++ l.note.toList)) =
        l.value.toList ++ [' '] := by
      rw [uncomment_spares.value hvalue]
      simp [noteMark, uncomment, Place.after, skipComment_last hnote]
    refine ⟨[], _, [' '], .nil, hvalue, spaces_single, ?_⟩
    have hdrop := dropCommas_spares.value hvalue [' ']
    simpa [strip, lines, hbare, dropCommas, Place.after] using hdrop
  | block model entries =>
    obtain ⟨-, hentries⟩ := h
    have hbare := ((keeps_brace uncomment_spares).1.append (uncomment_spares.spaces spaces_line)).append
      ((uncomment_entries 1 entries hentries).append (keeps_brace uncomment_spares).2) []
    obtain ⟨v, hv, hdrop⟩ := becomes_object spaces_line .nil (dropCommas_entries 1 entries hentries)
    refine ⟨[], v, [], .nil, hv, .nil, ?_⟩
    have hlines : (String.intercalate "\n" (block model entries).lines).toList =
        ['\x7b'] ++ ['\n'] ++ (text (entriesLines 1 entries) ++ ['\x7d']) := by
      rw [lines, ← List.cons_append, toList_join]
      simp
    rw [List.append_nil] at hbare
    rw [strip, hlines, hbare]
    simpa [uncomment, dropCommas] using hdrop []

end Sample

end RequestDocs
