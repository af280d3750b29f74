import RequestDocs.Proofs.DocumentLines
/-!
# Printed verbs

A document follows the verb on its request line: the header for a payload, the body and its status are
those of a request with that verb. Verbs are printed in capitals but compared as they are written, so
that a verb which differs from one with a payload in case alone is the only exception.
-/

namespace RequestDocs

namespace Verb

def payloadNames : List String := ["POST", "PUT", "PATCH"]

/-- The verb is printed like one with a payload without being one. -/
def Respells (v : Verb) : Prop := v.capitals ∈ payloadNames ∧ v.token ∉ payloadNames

variable {v : Verb}

theorem carriesPayload_iff : v.carriesPayload ↔ v.token ∈ payloadNames := by
  simp [carriesPayload, payloadNames]

theorem capitals_of_mem (h : v.token ∈ payloadNames) : v.capitals = v.token := by
  have hall : ∀ name ∈ payloadNames, capitals ⟨name⟩ = name := by decide +kernel
  exact hall v.token h

theorem capitals_mem_iff (h : ¬v.Respells) : v.capitals ∈ payloadNames ↔ v.token ∈ payloadNames := by
  constructor
  · intro hcapitals
    by_contra htoken
    exact h ⟨hcapitals, htoken⟩
  · intro htoken
    rwa [capitals_of_mem htoken]

theorem mem_capitals (h : parse? v.token = some v) {c : Char} (hc : c ∈ v.capitals.toList) :
    c ≠ ' ' ∧ c ≠ ':' := by
  have hcapital : ∀ c : Char, c.toNat < 128 → isTokenChar c → c.toUpper ≠ ' ' ∧ c.toUpper ≠ ':' :=
    fun c hc => Text.of_ascii (P := fun c => isTokenChar c → c.toUpper ≠ ' ' ∧ c.toUpper ≠ ':')
      (by decide +kernel) hc
  have hascii (d : Char) (hd : isTokenChar d) : d.toNat < 128 := by
    rcases Bool.or_eq_true_iff.1 hd with hletter | hsign
    · exact Text.toNat_lt_of_isAlphanum hletter
    · have hall : ∀ c ∈ "!#$%&'*+-.^_\x60|~".toList, c.toNat < 128 := by simp
      exact hall d (by simpa using hsign)
  have htoken : v.token.toList.all isTokenChar := by
    unfold parse? at h
    split at h
    · cases h
    · next hvalid =>
      obtain ⟨-, hall⟩ : ¬v.token.toList.isEmpty ∧ v.token.toList.all isTokenChar := by
        simpa using hvalid
      exact hall
  rw [capitals, String.toList_ofList] at hc
  obtain ⟨d, hd, rfl⟩ := List.mem_map.1 hc
  have hsign := List.all_eq_true.1 htoken d hd
  exact hcapital d (hascii d hsign) hsign

end Verb

namespace Document

/-- What stands on the request line before its first blank. -/
def printedVerb (d : Document) : String := Text.before ' ' d.requestLine

theorem count_contentType {lines : List String} (h : ∀ line ∈ lines, line.toList.head? ≠ some 'C') :
    lines.count contentTypeHeader = 0 := by
  apply List.count_eq_zero.2
  intro hmem
  exact h _ hmem (by decide)

theorem head?_groupLines {heading : String} (hheading : heading.toList.head? = some '/')
    {declarations : List String} (h : ∀ line ∈ declarations, line.toList.head? = some '@') :
    ∀ line ∈ groupLines heading declarations, line.toList.head? ≠ some 'C' := by
  unfold groupLines
  split
  · simp
  · intro line hline
    rcases List.mem_cons.1 hline with rfl | hline
    · decide
    · rcases List.mem_cons.1 hline with rfl | hline
      · simp [hheading]
      · simp [h line hline]

end Document

namespace Operation

open Document

variable {op : Operation}

theorem before_requestText (h : Verb.parse? op.effectiveVerb.token = some op.effectiveVerb) :
    Text.before ' ' op.requestText = op.effectiveVerb.capitals := by
  have hlist : op.requestText.toList = op.effectiveVerb.capitals.toList ++
      ' ' :: ("\x7b\x7bbaseUrl\x7d\x7d".toList ++ (substituteVariables op.writtenPath).toList ++
        (queryPart (op.parametersIn .query)).toList) := by
    simp [requestText]
  have hplain : ∀ c ∈ op.effectiveVerb.capitals.toList, (c != ' ') = true := by
    intro c hc
    simpa using (Verb.mem_capitals h hc).1
  rw [Text.before, hlist, List.takeWhile_append_of_pos hplain]
  simp

theorem printedVerb_draft (h : Verb.parse? op.effectiveVerb.token = some op.effectiveVerb)
    (options : DocumentOptions) : (op.draft options).printedVerb = op.effectiveVerb.capitals := by
  rw [printedVerb, draft_requestLine, before_requestText h]

theorem requestText_ne (h : Verb.parse? op.effectiveVerb.token = some op.effectiveVerb) :
    op.requestText ≠ contentTypeHeader := by
  intro heq
  have hbefore := before_requestText h
  have hheader : Text.before ' ' contentTypeHeader = "Content-Type:" := by decide +kernel
  rw [heq, hheader] at hbefore
  have hcolon : ':' ∈ op.effectiveVerb.capitals.toList := by
    rw [← hbefore]
    decide
  exact (Verb.mem_capitals h hcolon).2 rfl

theorem head?_variableLines (op : Operation) (options : DocumentOptions) :
    ∀ line ∈ op.variableLines options, line.toList.head? ≠ some 'C' := by
  have hparameters (names : List String) :
      ∀ line ∈ names.map parameterLine, line.toList.head? = some '@' := by
    intro line hline
    obtain ⟨name, -, rfl⟩ := List.mem_map.1 hline
    simp [parameterLine]
  have hauthentication : ∀ line ∈ (if op.authentication.isRequired then
      ["@authToken = REPLACE_WITH_YOUR_AUTH_TOKEN"] else []), line.toList.head? = some '@' := by
    split
    · simp
    · simp
  unfold variableLines
  simp only [List.forall_mem_append]
  refine ⟨⟨⟨?_, head?_groupLines (by decide) (hparameters _)⟩,
    head?_groupLines (by decide) (hparameters _)⟩, head?_groupLines (by decide) hauthentication⟩
  simp

theorem count_contentType_head (h : Verb.parse? op.effectiveVerb.token = some op.effectiveVerb)
    (options : DocumentOptions) : ((op.draft options).head op.name).count contentTypeHeader =
      if op.effectiveVerb.carriesPayload then 1 else 0 := by
  have htitle : ∀ line ∈ ["### " ++ op.name, ""], line.toList.head? ≠ some 'C' := by simp
  have hblank : "" ≠ contentTypeHeader := by decide
  have hrequest : ["", op.requestText].count contentTypeHeader = 0 := by
    simp [hblank, requestText_ne h]
  have hheaders : op.headerLines.count contentTypeHeader =
      if op.effectiveVerb.carriesPayload then 1 else 0 := by
    unfold headerLines
    cases op.effectiveVerb.carriesPayload <;> cases op.authentication.isRequired <;> decide
  have hlast : [""].count contentTypeHeader = 0 := by decide
  rw [draft_head, headLines]
  simp only [List.count_append, count_contentType htitle,
    count_contentType (op.head?_variableLines options), hrequest, hheaders, hlast]
  simp

/-- The header, the body and the status of the document are those of the verb on its request line: with
`POST`, `PUT` and `PATCH` the header stands once and a body is synthesized, with any other verb there
is no header, and the body is a comment. -/
structure FollowsPrintedVerb [Spelling]
    (op : Operation) (g : TypeGraph) (options : AssemblyOptions) : Prop where
  header : ((op.draft options.document).head op.name).count contentTypeHeader =
    if (op.draft options.document).printedVerb ∈ Verb.payloadNames then 1 else 0
  body : assemble g options op =
    if (op.draft options.document).printedVerb ∈ Verb.payloadNames then do
      let body ← synthesizeBody g options.maxDepth op.bodyHint op.body
      return op.document options.document body.1 body.2
    else return op.document options.document [noBodyAllowed] .notApplicable

/-- A document follows the verb on its request line unless the verb of the operation is printed like
another one with a payload. -/
theorem followsPrintedVerb_iff [Spelling]
    (g : TypeGraph) (options : AssemblyOptions) {op : Operation}
    (hverb : ∀ v ∈ op.verb, Verb.parse? v.token = some v) :
    op.FollowsPrintedVerb g options ↔ ¬op.effectiveVerb.Respells := by
  have htoken : Verb.parse? op.effectiveVerb.token = some op.effectiveVerb := by
    cases h : op.verb with
    | none => simp [effectiveVerb, h]; decide
    | some v => simpa [effectiveVerb, h] using hverb v h
  have hprinted := printedVerb_draft htoken options.document
  have hcount := count_contentType_head htoken options.document
  constructor
  · -- Such a verb is printed with a payload, but its document has no header.
    intro h hrespells
    obtain ⟨hcapitals, hname⟩ := hrespells
    have hheader := h.header
    rw [hcount, hprinted, if_pos hcapitals, if_neg (mt Verb.carriesPayload_iff.1 hname)] at hheader
    cases hheader
  · intro h
    have hsame : op.effectiveVerb.carriesPayload ↔
        (op.draft options.document).printedVerb ∈ Verb.payloadNames := by
      rw [hprinted, Verb.capitals_mem_iff h, Verb.carriesPayload_iff]
    refine ⟨?_, ?_⟩
    · rw [hcount]
      simp only [hsame]
    · rw [op.assemble_eq, bodySection]
      simp only [hsame]
      split
      · rfl
      · rfl

attribute [local instance] Spelling.plain

theorem postOwner_followsPrintedVerb : (∀ v ∈ postOwner.verb, Verb.parse? v.token = some v) ∧
    (postOwner.FollowsPrintedVerb petGraph petOptions ↔ ¬postOwner.effectiveVerb.Respells) := by
  have hverb : ∀ v ∈ postOwner.verb, Verb.parse? v.token = some v := by decide +kernel
  exact ⟨hverb, followsPrintedVerb_iff petGraph petOptions hverb⟩

def smallPost : Operation where
  name := "addPet"
  group := "pets"
  verb := some ⟨"post"⟩
  path := "/pets"
  parameters := []
  body := none
  authentication := .none

/-- The document of a request with `post` is printed as `POST`, without its header and body. -/
theorem smallPost_not_followsPrintedVerb : Verb.parse? "post" = some ⟨"post"⟩ ∧
    (smallPost.draft .default).printedVerb = "POST" ∧
    ((smallPost.draft .default).head smallPost.name).count contentTypeHeader = 0 ∧
    assemble (.ofList []) ⟨.default, 3⟩ smallPost =
      pure (smallPost.document .default [noBodyAllowed] .notApplicable) ∧
    ¬smallPost.FollowsPrintedVerb (.ofList []) ⟨.default, 3⟩ := by
  have hparse : Verb.parse? "post" = some ⟨"post"⟩ := by decide +kernel
  have hprinted : (smallPost.draft .default).printedVerb = "POST" := by decide +kernel
  have hcount : ((smallPost.draft .default).head smallPost.name).count contentTypeHeader = 0 := by
    decide +kernel
  refine ⟨hparse, hprinted, hcount, rfl, ?_⟩
  intro h
  have hheader := h.header
  rw [hprinted, hcount] at hheader
  exact absurd hheader (by decide)

end Operation

end RequestDocs
