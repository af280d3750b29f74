import Mathlib.Data.List.Forall2
import RequestDocs.PathTemplate.Basic
import RequestDocs.PathTemplate.Validation
import RequestDocs.Proofs.Identifiers
/-!
# The grammar of path templates

A segment of a path is well formed when it is made of characters other than braces and of names in
braces. A path of such segments has these names as its parameters, and every other path is refused
for the first brace that does not fit.
-/

namespace RequestDocs

/-- A segment that is well formed, with the names of its groups. -/
inductive SegmentForm : List Char → List (List Char) → Prop
  | nil : SegmentForm [] []
  | plain {c : Char} {cs : List Char} {names : List (List Char)} (hopen : c ≠ '{') (hclose : c ≠ '}')
      (h : SegmentForm cs names) : SegmentForm (c :: cs) names
  | group {name cs : List Char} {names : List (List Char)} (hne : name ≠ []) (hopen : '{' ∉ name)
      (hclose : '}' ∉ name) (h : SegmentForm cs names) :
      SegmentForm ('{' :: name ++ '}' :: cs) (name :: names)

def byteOffset (cs : List Char) : Nat := (String.ofList cs).utf8ByteSize

theorem byteOffset_append (as bs : List Char) : byteOffset (as ++ bs) = byteOffset as + byteOffset bs := by
  rw [byteOffset, String.ofList_append, String.utf8ByteSize_append]
  rfl

theorem byteOffset_singleton (c : Char) : byteOffset [c] = c.utf8Size := by
  rw [byteOffset, ← String.singleton_eq_ofList, String.utf8ByteSize_singleton]

theorem byteOffset_cons (c : Char) (cs : List Char) :
    byteOffset (c :: cs) = c.utf8Size + byteOffset cs := by
  rw [← List.singleton_append, byteOffset_append, byteOffset_singleton]

theorem byteOffset_eq_zero {cs : List Char} (h : byteOffset cs = 0) : cs = [] := by
  cases cs with
  | nil => rfl
  | cons c cs =>
    have hpos := c.utf8Size_pos
    rw [byteOffset_cons] at h
    omega

def InGroup (left : List Char) : Prop := ∃ before name, left = before ++ '{' :: name ∧ '}' ∉ name

/-- The brace does not fit after the characters: it is nested or unmatched, or it closes a group
without a name. -/
inductive Misplaced (left : List Char) : Char → Prop
  | nested (h : InGroup left) : Misplaced left '{'
  | unmatched (h : ¬InGroup left) : Misplaced left '}'
  | empty {before : List Char} (h : left = before ++ ['{']) : Misplaced left '}'

def Faultless (cs : List Char) : Prop := ∀ left c right, cs = left ++ c :: right → ¬Misplaced left c

/-- What an error says of a segment: where the brace stands that does not fit, with none of that kind
before it. -/
inductive Explains (segment : List Char) : TemplateError → Prop
  | nested {left right : List Char} (hsegment : segment = left ++ '{' :: right)
      (hgroup : InGroup left) (hleft : Faultless left) :
      Explains segment (.nestedBraces (String.ofList segment) (byteOffset left))
  | unmatched {left right : List Char} (hsegment : segment = left ++ '}' :: right)
      (hgroup : ¬InGroup left) (hleft : Faultless left) :
      Explains segment (.unmatchedClosingBrace (String.ofList segment) (byteOffset left))
  | empty {left right : List Char} (hsegment : segment = left ++ '{' :: '}' :: right)
      (hleft : Faultless (left ++ ['{'])) :
      Explains segment (.emptyParameter (String.ofList segment))
  | unclosed {left right : List Char} (hsegment : segment = left ++ '{' :: right)
      (hclose : '}' ∉ right) (hfaultless : Faultless segment) :
      Explains segment (.unclosedBrace (String.ofList segment) (byteOffset left))

private theorem concat_eq_append_cons {as before rest : List Char} {a b : Char}
    (h : as ++ [a] = before ++ b :: rest) : (as = before ∧ a = b ∧ rest = []) ∨
      ∃ middle, rest = middle ++ [a] ∧ as = before ++ b :: middle := by
  rcases List.eq_nil_or_concat' rest with rfl | ⟨middle, c, rfl⟩
  · obtain ⟨rfl, hb⟩ := List.append_inj' h rfl
    exact .inl ⟨rfl, List.singleton_inj.1 hb, rfl⟩
  · rw [← List.cons_append, ← List.append_assoc] at h
    obtain ⟨rfl, hc⟩ := List.append_inj' h rfl
    exact .inr ⟨middle, by rw [hc], rfl⟩

theorem not_inGroup_append_close (left : List Char) : ¬InGroup (left ++ ['}']) := by
  rintro ⟨before, name, heq, hclose⟩
  rcases concat_eq_append_cons heq with ⟨-, hbrace, -⟩ | ⟨middle, rfl, -⟩
  · exact absurd hbrace (by decide)
  · simp at hclose

theorem inGroup_of_append {left : List Char} {c : Char} (hopen : c ≠ '{') (h : InGroup (left ++ [c])) :
    InGroup left := by
  obtain ⟨before, name, heq, hclose⟩ := h
  rcases concat_eq_append_cons heq with ⟨-, hbrace, -⟩ | ⟨middle, rfl, rfl⟩
  · exact absurd hbrace hopen
  · exact ⟨before, middle, rfl, fun hmem => hclose (List.mem_append_left _ hmem)⟩

theorem faultless_nil : Faultless [] := by simp [Faultless]

theorem Faultless.concat {cs : List Char} {c : Char} (h : Faultless cs) (hc : ¬Misplaced cs c) :
    Faultless (cs ++ [c]) := by
  intro left d right heq
  rcases concat_eq_append_cons heq with ⟨rfl, rfl, -⟩ | ⟨middle, -, hcs⟩
  · exact hc
  · exact h left d middle hcs

theorem not_misplaced {left : List Char} {c : Char} (hopen : c ≠ '{') (hclose : c ≠ '}') :
    ¬Misplaced left c := by
  rintro (_ | _ | _)
  · exact hopen rfl
  · exact hclose rfl
  · exact hclose rfl

def OpenedAt (done : List Char) : (opened : Option Nat) → Prop
  | none => ¬InGroup done
  | some start => ∃ before name, done = before ++ '{' :: name ∧ '{' ∉ name ∧ '}' ∉ name ∧
      start = byteOffset before

namespace OpenedAt

variable {done : List Char} {start : Nat}

theorem inGroup (h : OpenedAt done (some start)) : InGroup done := by
  obtain ⟨before, name, rfl, -, hclose, -⟩ := h
  exact ⟨before, name, rfl, hclose⟩

theorem open_brace (done : List Char) : OpenedAt (done ++ ['{']) (some (byteOffset done)) :=
  ⟨done, [], rfl, by simp, by simp, rfl⟩

theorem concat {opened : Option Nat} (h : OpenedAt done opened) {c : Char} (hopen : c ≠ '{')
    (hclose : c ≠ '}') : OpenedAt (done ++ [c]) opened := by
  cases opened with
  | none => exact fun hgroup => h (inGroup_of_append hopen hgroup)
  | some start =>
    obtain ⟨before, name, rfl, hnameOpen, hnameClose, hstart⟩ := h
    refine ⟨before, name ++ [c], by simp, ?_, ?_, hstart⟩
    · simp [hnameOpen, Ne.symm hopen]
    · simp [hnameClose, Ne.symm hclose]

theorem position_iff (h : OpenedAt done (some start)) :
    byteOffset done = start + 1 ↔ ∃ before, done = before ++ ['{'] := by
  obtain ⟨before, name, rfl, hopen, -, rfl⟩ := h
  have hbrace : byteOffset ['{'] = 1 := by decide
  have hlength : byteOffset (before ++ '{' :: name) = byteOffset before + 1 + byteOffset name := by
    rw [← List.singleton_append, byteOffset_append, byteOffset_append, hbrace, Nat.add_assoc]
  rw [hlength]
  constructor
  · intro hposition
    obtain rfl : name = [] := byteOffset_eq_zero (by omega)
    exact ⟨before, rfl⟩
  · rintro ⟨before', heq⟩
    rcases concat_eq_append_cons heq.symm with ⟨-, -, rfl⟩ | ⟨middle, rfl, -⟩
    · rfl
    · simp at hopen

end OpenedAt

/-- An error that is found after faultless characters explains the whole segment. -/
theorem checkSegmentFrom_explains {done cs : List Char} {opened : Option Nat} {error : TemplateError}
    (hopened : OpenedAt done opened) (hdone : Faultless done)
    (h : checkSegmentFrom (String.ofList (done ++ cs)) opened (byteOffset done) cs = some error) :
    Explains (done ++ cs) error := by
  induction cs generalizing done opened with
  | nil =>
    cases opened with
    | none => cases h
    | some start =>
      obtain ⟨before, name, rfl, -, hclose, rfl⟩ := hopened
      cases h
      rw [List.append_nil]
      exact .unclosed rfl hclose hdone
  | cons c cs ih =>
    have hnext : done ++ c :: cs = (done ++ [c]) ++ cs := by simp
    have hoffset : byteOffset done + c.utf8Size = byteOffset (done ++ [c]) := by
      rw [byteOffset_append, byteOffset_singleton]
    have hrest {opened' : Option Nat} (hat : OpenedAt (done ++ [c]) opened') (hc : ¬Misplaced done c)
        (h : checkSegmentFrom (String.ofList (done ++ c :: cs)) opened' (byteOffset done + c.utf8Size)
          cs = some error) : Explains (done ++ c :: cs) error := by
      rw [hnext, hoffset] at h
      rw [hnext]
      exact ih hat (hdone.concat hc) h
    unfold checkSegmentFrom at h
    by_cases hopen : c = '{'
    · subst hopen
      cases opened with
      | none =>
        refine hrest (.open_brace done) ?_ h
        rintro ⟨hgroup⟩
        exact hopened hgroup
      | some start =>
        cases h
        exact .nested rfl hopened.inGroup hdone
    by_cases hclose : c = '}'
    · subst hclose
      cases opened with
      | none =>
        cases h
        exact .unmatched rfl hopened hdone
      | some start =>
        simp only [hopen, if_false, if_true] at h
        split at h
        · next hposition =>
          cases h
          obtain ⟨before, rfl⟩ := hopened.position_iff.1 hposition
          have hsplit : (before ++ ['{']) ++ '}' :: cs = before ++ '{' :: '}' :: cs := by simp
          exact .empty hsplit hdone
        · next hposition =>
          refine hrest (show OpenedAt _ none from not_inGroup_append_close done) ?_ h
          rintro (_ | hout | hempty)
          · exact hout hopened.inGroup
          · exact hposition (hopened.position_iff.2 ⟨_, hempty⟩)
    · refine hrest (hopened.concat hopen hclose) (not_misplaced hopen hclose) ?_
      cases opened with
      | none => simpa only [hopen, hclose, if_false] using h
      | some start => simpa only [hopen, hclose, if_false] using h

def pendingGroup (name : Option (List Char)) : List Char := (name.map ('{' :: ·)).getD []

theorem exists_form_of_checkSegmentFrom {segment : String} {cs : List Char} {position : Nat}
    (start : Nat) (name : Option (List Char))
    (hname : ∀ n ∈ name, '{' ∉ n ∧ '}' ∉ n ∧ position = start + 1 + byteOffset n)
    (h : checkSegmentFrom segment (name.map fun _ => start) position cs = none) :
    ∃ names, SegmentForm (pendingGroup name ++ cs) names := by
  induction cs generalizing name start position with
  | nil =>
    cases name with
    | none => exact ⟨[], .nil⟩
    | some name => cases h
  | cons c cs ih =>
    cases name with
    | none =>
      simp only [Option.map_none] at h
      unfold checkSegmentFrom at h
      split at h
      · next hc =>
        subst hc
        have hbrace : '{'.utf8Size = 1 := by decide
        obtain ⟨names, hnames⟩ := ih position (some []) (by simp [hbrace, byteOffset]) h
        exact ⟨names, hnames⟩
      · next hopen =>
        split at h
        · cases h
        · next hclose =>
          obtain ⟨names, hnames⟩ := ih start none (by simp) h
          exact ⟨names, .plain hopen hclose hnames⟩
    | some name =>
      obtain ⟨hnameOpen, hnameClose, hposition⟩ := hname name rfl
      simp only [Option.map_some] at h
      unfold checkSegmentFrom at h
      split at h
      · cases h
      · next hopen =>
        split at h
        · next hc =>
          subst hc
          split at h
          · cases h
          · next hlong =>
            obtain ⟨names, hnames⟩ := ih start none (by simp) h
            have hne : name ≠ [] := by
              rintro rfl
              exact hlong (by simpa [byteOffset] using hposition)
            exact ⟨name :: names, .group hne hnameOpen hnameClose hnames⟩
        · next hclose =>
          obtain ⟨names, hnames⟩ := ih start (some (name ++ [c])) (by
            simp [hnameOpen, hnameClose, Ne.symm hopen, Ne.symm hclose, byteOffset_append,
              byteOffset_singleton, hposition, Nat.add_assoc]) h
          exact ⟨names, by simpa [pendingGroup] using hnames⟩

private theorem checkSegmentFrom_group {segment : String} {start position : Nat} {name cs : List Char}
    (hopen : '{' ∉ name) (hclose : '}' ∉ name) (hlong : start + 1 < position + byteOffset name) :
    checkSegmentFrom segment (some start) position (name ++ '}' :: cs) =
      checkSegmentFrom segment none (position + byteOffset name + 1) cs := by
  induction name generalizing position with
  | nil =>
    have hposition : position ≠ start + 1 := by
      rw [byteOffset, String.ofList_nil, String.utf8ByteSize_empty] at hlong
      omega
    have hbrace : '}' ≠ '{' := by decide
    have hsize : '}'.utf8Size = 1 := by decide
    simp [checkSegmentFrom, hposition, hbrace, hsize, byteOffset]
  | cons c name ih =>
    rw [List.mem_cons, not_or] at hopen hclose
    rw [byteOffset_cons, ← Nat.add_assoc] at hlong ⊢
    rw [← ih hopen.2 hclose.2 hlong, List.cons_append, checkSegmentFrom, if_neg (Ne.symm hopen.1),
      if_neg (Ne.symm hclose.1)]

theorem SegmentForm.checkSegmentFrom_eq_none {cs : List Char} {names : List (List Char)}
    (h : SegmentForm cs names) (segment : String) (position : Nat) :
    checkSegmentFrom segment none position cs = none := by
  induction h generalizing position with
  | nil => rfl
  | plain hopen hclose _ ih =>
    rw [checkSegmentFrom, if_neg hopen, if_neg hclose]
    exact ih _
  | @group name cs names hne hopen hclose _ ih =>
    have hlong : position + 1 < position + '{'.utf8Size + byteOffset name := by
      have hsize : '{'.utf8Size = 1 := by decide
      have hname := mt byteOffset_eq_zero hne
      omega
    rw [List.cons_append, checkSegmentFrom, if_pos rfl, checkSegmentFrom_group hopen hclose hlong]
    exact ih _

theorem checkSegment_eq_none_iff {segment : List Char} :
    checkSegment segment = none ↔ ∃ names, SegmentForm segment names := by
  constructor
  · exact exists_form_of_checkSegmentFrom 0 none (by simp)
  · rintro ⟨names, h⟩
    exact h.checkSegmentFrom_eq_none _ _

theorem checkSegment_explains {segment : List Char} {error : TemplateError}
    (h : checkSegment segment = some error) : Explains segment error := by
  have hstart : OpenedAt [] none := by simp [OpenedAt, InGroup]
  have hoffset : byteOffset [] = 0 := rfl
  exact @checkSegmentFrom_explains [] segment none error hstart faultless_nil (by rwa [hoffset])

namespace PathTemplate

theorem paramsFrom_cons {c : Char} (hc : c ≠ '{') (cs : List Char) :
    paramsFrom none (c :: cs) = paramsFrom none cs := by
  rw [paramsFrom, if_neg hc]

private theorem paramsFrom_some {name : List Char} (hclose : '}' ∉ name) {read : List Char}
    (hne : read ++ name ≠ []) (cs : List Char) :
    paramsFrom (some read) (name ++ '}' :: cs) = (read ++ name) :: paramsFrom none cs := by
  induction name generalizing read with
  | nil =>
    rw [List.append_nil] at hne ⊢
    simp [paramsFrom, hne]
  | cons c name ih =>
    rw [List.mem_cons, not_or] at hclose
    have hnext : (read ++ [c]) ++ name = read ++ c :: name := by simp
    rw [List.cons_append, paramsFrom, if_neg (Ne.symm hclose.1), ih hclose.2 (hnext ▸ hne), hnext]

theorem paramsFrom_group {name : List Char} (hne : name ≠ []) (hclose : '}' ∉ name)
    (cs : List Char) : paramsFrom none ('{' :: name ++ '}' :: cs) = name :: paramsFrom none cs := by
  rw [List.cons_append, paramsFrom, if_pos rfl, paramsFrom_some hclose (by simpa using hne)]
  rfl

end PathTemplate

open PathTemplate

namespace SegmentForm

variable {segment : List Char} {names : List (List Char)}

theorem paramsFrom_append (h : SegmentForm segment names) (rest : List Char) :
    paramsFrom none (segment ++ rest) = names ++ paramsFrom none rest := by
  induction h with
  | nil => rfl
  | plain hopen _ _ ih => rw [List.cons_append, paramsFrom_cons hopen, ih]
  | @group name cs names hne _ hclose _ ih =>
    have hsplit : ('{' :: name ++ '}' :: cs) ++ rest = '{' :: name ++ '}' :: (cs ++ rest) := by simp
    rw [hsplit, paramsFrom_group hne hclose, ih, List.cons_append]

theorem of_mem (h : SegmentForm segment names) : ∀ name ∈ names,
    '{' ∉ name ∧ '}' ∉ name ∧ name ⊆ segment := by
  induction h with
  | nil => simp
  | plain _ _ _ ih =>
    intro name hname
    obtain ⟨hopen, hclose, hsubset⟩ := ih name hname
    exact ⟨hopen, hclose, List.subset_cons_of_subset _ hsubset⟩
  | @group name cs names _ hopen hclose _ ih =>
    refine List.forall_mem_cons.2 ⟨⟨hopen, hclose, ?_⟩, fun name' hname' => ?_⟩
    · exact List.subset_append_of_subset_left _ (List.subset_cons_self '{' name)
    · obtain ⟨hopen', hclose', hsubset⟩ := ih name' hname'
      refine ⟨hopen', hclose', List.subset_append_of_subset_right _ ?_⟩
      exact List.subset_cons_of_subset '}' hsubset

end SegmentForm

private theorem exists_of_mem_right {α β : Type} {R : α → β → Prop} {xs : List α} {ys : List β}
    (h : List.Forall₂ R xs ys) {y : β} (hy : y ∈ ys) : ∃ x ∈ xs, R x y := by
  induction h with
  | nil => simp at hy
  | cons hxy _ ih =>
    rcases List.mem_cons.1 hy with rfl | hy
    · exact ⟨_, List.mem_cons_self, hxy⟩
    · obtain ⟨x, hx, hR⟩ := ih hy
      exact ⟨x, List.mem_cons_of_mem _ hx, hR⟩

theorem paramsFrom_joinWith {segments : List (List Char)} {names : List (List (List Char))}
    (h : List.Forall₂ SegmentForm segments names) :
    paramsFrom none (Text.joinWith '/' segments) = names.flatten := by
  induction h with
  | nil => rfl
  | @cons segment first segments names hsegment hrest ih =>
    have hslash : '/' ≠ '{' := by decide
    cases segments with
    | nil =>
      cases hrest
      have hlast := hsegment.paramsFrom_append []
      rwa [List.append_nil] at hlast
    | cons segment' segments =>
      rw [Text.joinWith, hsegment.paramsFrom_append, paramsFrom_cons hslash, ih, List.flatten_cons]
      simp

/-- A path is accepted exactly when all its segments are well formed. The names of their groups are
then its parameters, in order. The error of any other path is that of the first segment that is not
well formed, and stands at the first brace that does not fit or at the one that is never closed. -/
theorem checkTemplate_grammar (path : String) :
    (checkTemplate path = none ↔
      ∀ segment ∈ Text.splitOn '/' path.toList, ∃ names, SegmentForm segment names) ∧
    (∀ names, List.Forall₂ SegmentForm (Text.splitOn '/' path.toList) names →
      templateParams path = names.flatten.map String.ofList ∧
      ∀ name ∈ names.flatten, '/' ∉ name ∧ '{' ∉ name ∧ '}' ∉ name) ∧
    ∀ error, checkTemplate path = some error → ∃ before segment after,
      Text.splitOn '/' path.toList = before ++ segment :: after ∧
      (∀ other ∈ before, ∃ names, SegmentForm other names) ∧
      (¬∃ names, SegmentForm segment names) ∧ Explains segment error := by
  refine ⟨?_, fun names hnames => ?_, fun error herror => ?_⟩
  · simp only [checkTemplate, List.findSome?_eq_none_iff, checkSegment_eq_none_iff]
  · have hparams := paramsFrom_joinWith hnames
    rw [Text.joinWith_splitOn] at hparams
    refine ⟨by rw [templateParams, hparams], fun name hname => ?_⟩
    obtain ⟨group, hgroup, hname⟩ := List.mem_flatten.1 hname
    obtain ⟨segment, hsegment, hform⟩ := exists_of_mem_right hnames hgroup
    obtain ⟨hopen, hclose, hsubset⟩ := hform.of_mem name hname
    refine ⟨fun hslash => ?_, hopen, hclose⟩
    simpa using Text.of_mem_splitWhere hsegment (hsubset hslash)
  · obtain ⟨before, segment, after, hsplit, hsegment, hbefore⟩ := List.findSome?_eq_some_iff.1 herror
    refine ⟨before, segment, after, hsplit, fun other hother => ?_, fun hform => ?_,
      checkSegment_explains hsegment⟩
    · exact checkSegment_eq_none_iff.1 (hbefore other hother)
    · cases (checkSegment_eq_none_iff.2 hform).symm.trans hsegment

theorem petPaths_grammar :
    templateParams "/pets/\x7bpetId\x7d" = ["petId"] ∧ ∃ before segment after,
      Text.splitOn '/' "/pets/\x7bé\x7bb\x7d".toList = before ++ segment :: after ∧
      (∀ other ∈ before, ∃ names, SegmentForm other names) ∧
      (¬∃ names, SegmentForm segment names) ∧ Explains segment (.nestedBraces "\x7bé\x7bb\x7d" 3) := by
  have hpetId : SegmentForm ('{' :: "petId".toList ++ '}' :: []) ["petId".toList] :=
    .group (by decide) (by decide) (by decide) .nil
  have hpets : SegmentForm "pets".toList [] :=
    .plain (by decide) (by decide) <| .plain (by decide) (by decide) <|
      .plain (by decide) (by decide) <| .plain (by decide) (by decide) .nil
  have hsegments : List.Forall₂ SegmentForm (Text.splitOn '/' "/pets/\x7bpetId\x7d".toList)
      [[], [], ["petId".toList]] := .cons .nil (.cons hpets (.cons hpetId .nil))
  exact ⟨((checkTemplate_grammar _).2.1 _ hsegments).1,
    (checkTemplate_grammar "/pets/\x7bé\x7bb\x7d").2.2 _ (by decide +kernel)⟩

end RequestDocs
