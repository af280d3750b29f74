import Mathlib.Data.List.TakeDrop
import RequestDocs.Generation.Stats
import RequestDocs.OpenApi.Requests
import RequestDocs.Proofs.Identifiers
/-!
# Spellings of content types

Content types are read without regard to the case of their letters, and so is the question whether one of
them stands for JSON answered. The form of a body depends on names in small letters. Two spellings of a
content type are classified alike if and only if these names find both of them or neither.
-/

namespace RequestDocs

namespace Text

def smallLetters (s : String) : String := String.ofList (s.toList.map Char.toLower)

theorem toList_smallLetters (s : String) : (smallLetters s).toList = s.toList.map Char.toLower :=
  String.toList_ofList

namespace Caseless

variable {p : Char → Bool} (hp : Caseless p) (cs : List Char)

include hp

theorem takeWhile_map : (cs.map Char.toLower).takeWhile p = (cs.takeWhile p).map Char.toLower := by
  rw [List.takeWhile_map, hp]

theorem dropWhile_map : (cs.map Char.toLower).dropWhile p = (cs.dropWhile p).map Char.toLower := by
  rw [List.dropWhile_map, hp]

theorem all_map : (cs.map Char.toLower).all p = cs.all p := by
  rw [List.all_map, hp]

theorem span_map : (cs.map Char.toLower).span p =
    ((cs.span p).1.map Char.toLower, (cs.span p).2.map Char.toLower) := by
  rw [List.span_eq_takeWhile_dropWhile, List.span_eq_takeWhile_dropWhile, hp.takeWhile_map,
    hp.dropWhile_map]

theorem trimBy_map : trimBy p (cs.map Char.toLower) = (trimBy p cs).map Char.toLower := by
  unfold trimBy
  rw [hp.dropWhile_map, ← List.map_reverse, hp.dropWhile_map, List.map_reverse]

end Caseless

theorem trim_smallLetters (s : String) : trim (smallLetters s) = smallLetters (trim s) := by
  have hblank : Caseless isBlank := caseless_of_ascii (by decide +kernel)
  unfold trim
  rw [toList_smallLetters, hblank.trimBy_map, smallLetters, String.toList_ofList]

theorem before_smallLetters {sep : Char} (hsep : Caseless (· != sep)) (s : String) :
    before sep (smallLetters s) = smallLetters (before sep s) := by
  unfold before
  rw [toList_smallLetters, hsep.takeWhile_map, smallLetters, String.toList_ofList]

end Text

namespace MediaType

open Text

def lowered (m : MediaType) : MediaType :=
  ⟨smallLetters m.type, smallLetters m.subtype, m.suffix.map smallLetters⟩

theorem sameName_iff {a b : String} : sameName a b ↔ smallLetters a = smallLetters b := by
  unfold sameName smallLetters
  rw [beq_iff_eq, String.ofList_inj]

theorem caseless_isNameChar : Caseless isNameChar := caseless_of_ascii (by decide +kernel)

theorem isName_map (cs : List Char) : isName (cs.map Char.toLower) = isName cs := by
  have hfirst : Caseless fun c => c.isAlphanum || c == '*' := caseless_of_ascii (by decide +kernel)
  unfold isName
  rw [List.length_map, caseless_isNameChar.all_map, List.head?_map, Option.map_map, hfirst]

theorem splitLast_map {sep : Char} (hsep : Caseless (· != sep)) (cs : List Char) :
    splitLast sep (cs.map Char.toLower) =
      ((splitLast sep cs).1.map Char.toLower, (splitLast sep cs).2.map (List.map Char.toLower)) := by
  unfold splitLast
  simp only [← List.map_reverse, hsep.takeWhile_map, List.length_map]
  split
  · rw [List.map_take, Option.map_some]
  · rfl

theorem readSuffix_map (suffix : Option (List Char)) :
    readSuffix (suffix.map (List.map Char.toLower)) =
      (readSuffix suffix).map (Option.map smallLetters) := by
  match suffix with
  | none => rfl
  | some [] => rfl
  | some (c :: cs) =>
    have hname : isName (cs.map Char.toLower) = isName cs := isName_map cs
    simp only [readSuffix, Option.map_some, List.map_cons, hname]
    split
    · simp [smallLetters]
    · rfl

theorem parse?_smallLetters (s : String) : parse? (smallLetters s) = (parse? s).map lowered := by
  have hslash : Caseless (· != '/') := caseless_of_ascii (by decide +kernel)
  have hplus : Caseless (· != '+') := caseless_of_ascii (by decide +kernel)
  have hspace : Caseless fun c => c == ' ' || c == '\t' := caseless_of_ascii (by decide +kernel)
  unfold parse?
  rw [toList_smallLetters]
  simp only [hslash.takeWhile_map, List.length_map, ← List.map_drop]
  cases s.toList.drop (s.toList.takeWhile (· != '/')).length with
  | nil => rfl
  | cons c rest =>
    simp only [List.map_cons, caseless_isNameChar.span_map, splitLast_map hplus, isName_map,
      hspace.all_map, readSuffix_map]
    split
    · cases readSuffix (splitLast '+' (rest.span isNameChar).1).2 with
      | none => rfl
      | some suffix => simp [lowered, smallLetters]
    · rfl

theorem essence?_smallLetters (contentType : String) :
    essence? (smallLetters contentType) = (essence? contentType).map lowered := by
  have hsep : Caseless (· != ';') := caseless_of_ascii (by decide +kernel)
  unfold essence?
  rw [before_smallLetters hsep, trim_smallLetters, parse?_smallLetters]

theorem essence?_cases {a b : String} (h : sameName a b) :
    (essence? a = none ∧ essence? b = none) ∨
      ∃ m n, essence? a = some m ∧ essence? b = some n ∧ m.lowered = n.lowered := by
  have hread : (essence? a).map lowered = (essence? b).map lowered := by
    rw [← essence?_smallLetters, ← essence?_smallLetters, sameName_iff.1 h]
  cases ha : essence? a with
  | none =>
    rw [ha] at hread
    exact .inl ⟨rfl, Option.map_eq_none_iff.1 hread.symm⟩
  | some m =>
    rw [ha] at hread
    obtain ⟨n, hb, hsame⟩ := Option.map_eq_some_iff.1 hread.symm
    exact .inr ⟨m, n, rfl, hb, hsame.symm⟩

theorem sameName_congr {a b : String} (h : smallLetters a = smallLetters b) (name : String) :
    sameName a name = sameName b name := by
  rw [Bool.eq_iff_iff, sameName_iff, sameName_iff, h]

theorem isJson_congr {m n : MediaType} (h : m.lowered = n.lowered) : m.isJson = n.isJson := by
  simp only [lowered, MediaType.mk.injEq] at h
  obtain ⟨htype, hsubtype, hsuffix⟩ := h
  unfold isJson
  rw [sameName_congr htype]
  cases hm : m.suffix with
  | none =>
    rw [hm] at hsuffix
    rw [Option.map_eq_none_iff.1 hsuffix.symm, sameName_congr hsubtype]
  | some suffix =>
    rw [hm] at hsuffix
    obtain ⟨suffix', hn, hsame⟩ := Option.map_eq_some_iff.1 hsuffix.symm
    simp only [hn, sameName_congr hsubtype, sameName_congr hsame]

/-- The form of a body by the name of its media type, when the name decides it. -/
def kindByName? (m : MediaType) : Option BodyKind :=
  if m.type = "multipart" then some .multipart
  else if m.type = "application" ∧ m.subtype = "octet-stream" ∨ m.type ∈ ["image", "audio", "video"] then
    some .file
  else none

/-- The name decides the form of a body, but only once it is in small letters. -/
def Overlooked (m : MediaType) : Prop := m.kindByName? = none ∧ m.lowered.kindByName? ≠ none

instance (m : MediaType) : Decidable m.Overlooked :=
  inferInstanceAs (Decidable (m.kindByName? = none ∧ m.lowered.kindByName? ≠ none))

theorem kindByName?_ne_single (m : MediaType) : m.kindByName? ≠ some .single := by
  unfold kindByName?
  split
  · simp
  · split <;> simp

theorem kindByName?_lowered {m : MediaType} {kind : BodyKind} (h : m.kindByName? = some kind) :
    m.lowered.kindByName? = some kind := by
  have hsmall : ∀ name ∈ ["multipart", "application", "octet-stream", "image", "audio", "video"],
      smallLetters name = name := by decide +kernel
  unfold kindByName? at h
  split at h
  · next htype =>
    have hlowered : m.lowered.type = "multipart" := (hsmall _ (by simp [htype])).trans htype
    rw [kindByName?, if_pos hlowered]
    exact h
  · next hother =>
    split at h
    · next hfile =>
      have hlowered : m.lowered.type = "application" ∧ m.lowered.subtype = "octet-stream" ∨
          m.lowered.type ∈ ["image", "audio", "video"] := by
        rcases hfile with ⟨htype, hsubtype⟩ | htype
        · left
          constructor
          · exact (hsmall _ (by simp [htype])).trans htype
          · exact (hsmall _ (by simp [hsubtype])).trans hsubtype
        · right
          have hkept : m.lowered.type = m.type :=
            hsmall _ (List.mem_append_right ["multipart", "application", "octet-stream"] htype)
          rwa [hkept]
      have hmultipart : m.lowered.type ≠ "multipart" := by
        intro heq
        simp [heq] at hlowered
      rw [kindByName?, if_neg hmultipart, if_pos hlowered]
      exact h
    · cases h

theorem kindByName?_eq_iff {m n : MediaType} (h : m.lowered = n.lowered) :
    m.kindByName? = n.kindByName? ↔ (m.Overlooked ↔ n.Overlooked) := by
  unfold Overlooked
  rw [h]
  constructor
  · intro hkind
    rw [hkind]
  · intro hiff
    cases hm : m.kindByName? with
    | none =>
      cases hn : n.kindByName? with
      | none => rfl
      | some kind =>
        have hlowered : n.lowered.kindByName? = some kind := kindByName?_lowered hn
        simp [hm, hn, hlowered] at hiff
    | some kind =>
      have hlowered : n.lowered.kindByName? = some kind := h ▸ kindByName?_lowered hm
      cases hn : n.kindByName? with
      | none => simp [hm, hn, hlowered] at hiff
      | some kind' => exact hlowered.symm.trans (kindByName?_lowered hn)

end MediaType

/-- The lines of the body section, how they came about, and the warnings for it. -/
def Operation.bodyReport [Spelling] (op : Operation) (g : TypeGraph) (maxDepth : Nat) :
    Synthesis (List String × BodyStatus × List Warning) := do
  let (lines, status) ← op.bodySection g maxDepth
  return (lines, status, Stats.statusWarning op.name status)

namespace OpenApi

open MediaType

theorem isJsonContentType_congr {a b : String} (h : sameName a b) :
    isJsonContentType a = isJsonContentType b := by
  unfold isJsonContentType
  rcases essence?_cases h with ⟨ha, hb⟩ | ⟨m, n, ha, hb, hsame⟩
  · rw [ha, hb]
  · rw [ha, hb, Option.map_some, Option.map_some, isJson_congr hsame]

theorem bodyKind_of_essence? {contentType : String} {m : MediaType}
    (h : essence? contentType = some m) (schema : Option Schema) :
    bodyKind contentType schema = m.kindByName?.getD (if isBinary schema then .file else .single) := by
  unfold bodyKind kindByName?
  rw [h]
  simp only [beq_iff_eq, Bool.and_eq_true, List.contains_iff_mem]
  split_ifs <;> simp_all

/-- Bodies have the same form by both content types, whatever their schema, if and only if the names of
these decide alike. -/
theorem bodyKind_eq_iff {a b : String} {m n : MediaType} (ha : essence? a = some m)
    (hb : essence? b = some n) :
    (∀ schema, bodyKind a schema = bodyKind b schema) ↔ m.kindByName? = n.kindByName? := by
  constructor
  · intro hkind
    -- Without a schema only the names are left to decide.
    have hplain : m.kindByName?.getD .single = n.kindByName?.getD .single := by
      have hnone := hkind none
      rwa [bodyKind_of_essence? ha, bodyKind_of_essence? hb] at hnone
    have hm := m.kindByName?_ne_single
    have hn := n.kindByName?_ne_single
    cases hmk : m.kindByName? <;> cases hnk : n.kindByName? <;> simp_all
  · intro hkind schema
    rw [bodyKind_of_essence? ha, bodyKind_of_essence? hb, hkind]

/-- The content type is read as a media type that is overlooked. -/
def Overlooked (contentType : String) : Prop := ∃ m ∈ essence? contentType, m.Overlooked

instance (contentType : String) : Decidable (Overlooked contentType) :=
  inferInstanceAs (Decidable (∃ m ∈ essence? contentType, m.Overlooked))

def bodyOf (contentType : String) (schema : Option Schema) (others : List String) (type : TypeId) : Body :=
  ⟨bodyKind contentType schema, contentType :: others, type⟩

/-- Two content types that make no difference: they stand for JSON alike, bodies of each schema have the
same form by them, and in every operation the body section, its status and its warnings are the same,
apart from the content type that is named when it is not JSON. -/
structure ClassifiedAlike [Spelling] (a b : String) : Prop where
  json : isJsonContentType a = isJsonContentType b
  kind : ∀ schema, bodyKind a schema = bodyKind b schema
  report : ∀ (op : Operation) (schema : Option Schema) (others : List String) (type : TypeId)
    (g : TypeGraph) (maxDepth : Nat),
    let outcome ct := { op with body := some (bodyOf ct schema others type) }.bodyReport g maxDepth
    outcome a = outcome b ∨
      ∀ ct ∈ [a, b], outcome ct = pure ([nonJsonBody ct], .nonJson ct, [.nonJsonBody op.name ct])

section Alike

variable {a b : String}

theorem synthesizeBody_alike [Spelling] (hjson : isJsonContentType a = isJsonContentType b)
    (hkind : ∀ schema, bodyKind a schema = bodyKind b schema) (schema : Option Schema)
    (others : List String) (type : TypeId) (g : TypeGraph) (maxDepth : Nat) (hint : String) :
    synthesizeBody g maxDepth hint (some (bodyOf a schema others type)) =
        synthesizeBody g maxDepth hint (some (bodyOf b schema others type)) ∨
      ∀ ct ∈ [a, b], synthesizeBody g maxDepth hint (some (bodyOf ct schema others type)) =
        pure ([nonJsonBody ct], .nonJson ct) := by
  have hsame := hkind schema
  by_cases hsingle : bodyKind b schema = .single
  · cases hb : isJsonContentType b with
    | true =>
      left
      simp [synthesizeBody, bodyOf, Body.primaryContentType, hsame, hsingle, hjson, hb]
    | false =>
      right
      simp [synthesizeBody, bodyOf, Body.primaryContentType, hsame, hsingle, hjson, hb]
  · left
    simp [synthesizeBody, bodyOf, hsame, hsingle]

theorem classifiedAlike_of_kind [Spelling] (hjson : isJsonContentType a = isJsonContentType b)
    (hkind : ∀ schema, bodyKind a schema = bodyKind b schema) : ClassifiedAlike a b := by
  refine ⟨hjson, hkind, ?_⟩
  intro op schema others type g maxDepth outcome
  have houtcome (ct : String) : outcome ct = do
      let (lines, status) ← (if op.effectiveVerb.carriesPayload then
          synthesizeBody g maxDepth op.bodyHint (some (bodyOf ct schema others type))
        else pure ([noBodyAllowed], .notApplicable))
      return (lines, status, Stats.statusWarning op.name status) := rfl
  cases hpayload : op.effectiveVerb.carriesPayload with
  | false =>
    left
    simp only [houtcome, hpayload, Bool.false_eq_true, if_false]
  | true =>
    rcases synthesizeBody_alike hjson hkind schema others type g maxDepth op.bodyHint with h | h
    · left
      simp only [houtcome, hpayload, if_true]
      rw [h]
    · right
      intro ct hct
      simp only [houtcome, hpayload, if_true]
      rw [h ct hct]
      rfl

/-- Two spellings of a content type always stand for JSON alike, and they are classified alike unless
just one of them is overlooked. -/
theorem classifiedAlike_iff [Spelling] (h : sameName a b) :
    isJsonContentType a = isJsonContentType b ∧
      (ClassifiedAlike a b ↔ (Overlooked a ↔ Overlooked b)) := by
  have hjson := isJsonContentType_congr h
  have hkind : ClassifiedAlike a b ↔ ∀ schema, bodyKind a schema = bodyKind b schema :=
    ⟨ClassifiedAlike.kind, classifiedAlike_of_kind hjson⟩
  constructor
  · exact hjson
  · rw [hkind]
    unfold Overlooked
    rcases essence?_cases h with ⟨ha, hb⟩ | ⟨m, n, ha, hb, hsame⟩
    · simp [bodyKind, ha, hb]
    · rw [bodyKind_eq_iff ha hb, kindByName?_eq_iff hsame, ha, hb]
      simp

end Alike

attribute [local instance] Spelling.plain

theorem patchType_classifiedAlike :
    let capital := "Application/Merge-Patch+JSON; charset=UTF-8"
    let small := "application/merge-patch+json; charset=utf-8"
    sameName capital small ∧ isJsonContentType capital ∧ isJsonContentType small ∧
      ClassifiedAlike capital small := by
  intro capital small
  have hsame : sameName capital small := by decide +kernel
  have hsmall : isJsonContentType small := by decide +kernel
  have hfound : Overlooked capital ↔ Overlooked small := by decide +kernel
  obtain ⟨hjson, hiff⟩ := classifiedAlike_iff hsame
  exact ⟨hsame, hjson.trans hsmall, hsmall, hiff.2 hfound⟩

/-- A form with a capital letter in its content type passes for a single body. -/
theorem formType_not_classifiedAlike :
    sameName "Multipart/form-data" "multipart/form-data" ∧
      bodyKind "Multipart/form-data" none = .single ∧
      bodyKind "multipart/form-data" none = .multipart ∧
      ¬ClassifiedAlike "Multipart/form-data" "multipart/form-data" := by
  have hcapital : bodyKind "Multipart/form-data" none = .single := by decide +kernel
  have hsmall : bodyKind "multipart/form-data" none = .multipart := by decide +kernel
  refine ⟨by decide +kernel, hcapital, hsmall, ?_⟩
  intro halike
  have hkind := halike.kind none
  rw [hcapital, hsmall] at hkind
  cases hkind

end OpenApi

end RequestDocs
