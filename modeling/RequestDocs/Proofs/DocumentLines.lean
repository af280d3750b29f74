import RequestDocs.Proofs.DocumentFiles
import RequestDocs.Proofs.SampleLines
import RequestDocs.Proofs.ServiceFolders
/-!
# Lines of documents

The lines of a document up to its body, as its readers expect them. A text that is taken over from a
description as it is written adds no line to them exactly when it has no line break itself.
-/

namespace RequestDocs

namespace Document

def groupLines (heading : String) (declarations : List String) : List String :=
  if declarations.isEmpty then [] else "" :: heading :: declarations

def parameterLine (name : String) : String :=
  "@" ++ name ++ " = REPLACE_WITH_" ++ Text.toUpper name ++ "_VALUE"

def queryItem (name : String) : String := name ++ "=\x7b\x7b" ++ name ++ "\x7d\x7d"

def queryPart (names : List String) : String :=
  if names.isEmpty then "" else "?" ++ String.intercalate "&" (names.map queryItem)

theorem parameterGroup_eq (heading : String) (params : List String) :
    parameterGroup heading params = groupLines heading (params.map parameterLine) := by
  have hline : placeholder = parameterLine := by
    funext name
    simp only [placeholder, declaration, parameterLine, String.append_assoc]
    rfl
  simp [parameterGroup, groupLines, hline]

theorem queryString_eq (params : List String) : queryString params = queryPart params := by
  have hitem : (fun p => p ++ "=" ++ reference p) = queryItem := by
    funext name
    simp only [reference, queryItem, String.append_assoc]
    rfl
  simp only [queryString, queryPart, hitem]

end Document

namespace Operation

open Document

def variableLines (op : Operation) (options : DocumentOptions) : List String :=
  ["// Variables section - defines variables to use in the request",
    "@host = " ++ options.host,
    "@port = " ++ toString options.port,
    "@baseUrl = http://\x7b\x7bhost\x7d\x7d\x7b\x7b#if port\x7d\x7d:\x7b\x7bport\x7d\x7d\x7b\x7b/if\x7d\x7d"] ++
  groupLines "// Path parameters" ((uniqueTemplateParams op.writtenPath).map parameterLine) ++
  groupLines "// Query parameters" ((op.parametersIn .query).map parameterLine) ++
  groupLines "// Authentication"
    (if op.authentication.isRequired then ["@authToken = REPLACE_WITH_YOUR_AUTH_TOKEN"] else [])

def requestText (op : Operation) : String :=
  op.effectiveVerb.capitals ++ " \x7b\x7bbaseUrl\x7d\x7d" ++ substituteVariables op.writtenPath ++
    queryPart (op.parametersIn .query)

def headerLines (op : Operation) : List String :=
  (if op.effectiveVerb.carriesPayload then ["Content-Type: application/json"] else []) ++
    if op.authentication.isRequired then ["Authorization: Bearer \x7b\x7bauthToken\x7d\x7d"] else []

/-- The lines of a document up to its body: title, variables, request and headers. -/
def headLines (op : Operation) (options : DocumentOptions) : List String :=
  ["### " ++ op.name, ""] ++ op.variableLines options ++ ["", op.requestText] ++ op.headerLines ++ [""]

theorem draft_declarations (op : Operation) (options : DocumentOptions) :
    (op.draft options).declarations = op.variableLines options := by
  have hbaseUrl : declaration "baseUrl" baseUrl =
      "@baseUrl = http://\x7b\x7bhost\x7d\x7d\x7b\x7b#if port\x7d\x7d:\x7b\x7bport\x7d\x7d\x7b\x7b/if\x7d\x7d" := by
    decide +kernel
  have hauthentication : (if op.authentication.isRequired then authenticationGroup else []) =
      groupLines "// Authentication"
        (if op.authentication.isRequired then ["@authToken = REPLACE_WITH_YOUR_AUTH_TOKEN"] else []) := by
    split <;> rfl
  have hstart : (start options).declarations = ["// Variables section - defines variables to use in the request",
      "@host = " ++ options.host, "@port = " ++ toString options.port, declaration "baseUrl" baseUrl] := by
    simp only [start, declaration, String.append_assoc]
    rfl
  change (start options).declarations ++ parameterGroup _ _ ++ parameterGroup _ _ ++ _ = _
  rw [hstart, hbaseUrl, parameterGroup_eq, parameterGroup_eq, hauthentication, variableLines]

theorem draft_requestLine (op : Operation) (options : DocumentOptions) :
    (op.draft options).requestLine = op.requestText := by
  change op.effectiveVerb.capitals ++ " " ++ reference "baseUrl" ++ _ ++ queryString _ = _
  rw [queryString_eq, requestText]
  simp only [String.append_assoc]
  rfl

theorem draft_headers (op : Operation) (options : DocumentOptions) :
    (op.draft options).headers = op.headerLines := by
  change [] ++ (if op.effectiveVerb.carriesPayload then [contentTypeHeader] else []) ++
    (if op.authentication.isRequired then [authorizationHeader] else []) = _
  rfl

theorem draft_head (op : Operation) (options : DocumentOptions) :
    (op.draft options).head op.name = op.headLines options := by
  rw [Document.head, draft_declarations, draft_requestLine, draft_headers, headLines]

end Operation

namespace Text

theorem oneLine_of_mem_split {s line : String} (h : line ∈ split '\n' s) : OneLine line := by
  obtain ⟨part, hpart, rfl⟩ := List.mem_map.1 h
  intro hmem
  rw [String.toList_ofList] at hmem
  simpa using of_mem_splitWhere hpart hmem

theorem oneLine_of_split {s line : String} (h : split '\n' s = [line]) : OneLine s := by
  have hmem : line ∈ split '\n' s := by simp [h]
  have hline : OneLine line := oneLine_of_mem_split hmem
  have hjoined := joinWith_splitOn '\n' s.toList
  obtain ⟨part, hpart, rfl⟩ := List.map_eq_singleton_iff.1 h
  rw [hpart] at hjoined
  obtain rfl : part = s.toList := hjoined
  simpa using hline

theorem split_intercalate_append {lines rest : List String} (h : ∀ line ∈ lines, OneLine line)
    (hne : rest ≠ []) : split '\n' (String.intercalate "\n" (lines ++ rest)) =
      lines ++ split '\n' (String.intercalate "\n" rest) := by
  induction lines with
  | nil => rfl
  | cons line lines ih =>
    obtain ⟨hline, hlines⟩ := List.forall_mem_cons.1 h
    rw [List.cons_append, split_intercalate_cons hline (by simp [hne]), ih hlines, List.cons_append]

end Text

theorem oneLine_append {s t : String} : OneLine (s ++ t) ↔ OneLine s ∧ OneLine t := by
  simp [OneLine]

theorem OneLine.intercalate {sep : String} (hsep : OneLine sep) {parts : List String}
    (h : ∀ part ∈ parts, OneLine part) : OneLine (String.intercalate sep parts) := by
  induction parts with
  | nil => simp [OneLine]
  | cons part parts ih =>
    obtain ⟨hpart, hparts⟩ := List.forall_mem_cons.1 h
    by_cases hlast : parts = []
    · rwa [hlast, String.intercalate_singleton]
    · rw [String.intercalate_cons_of_ne_nil hlast]
      exact (hpart.append hsep).append (ih hparts)

theorem oneLine_toString (n : Nat) : OneLine (toString n) := by
  intro hmem
  rw [Nat.toString_eq_repr, Nat.toList_repr] at hmem
  have hdigit := Nat.isDigit_of_mem_toDigits (by decide) (by decide) hmem
  exact absurd hdigit (by decide)

namespace PathTemplate

theorem mem_asVariable {c : Char} (hc : c ∉ ['{', '}']) (name : List Char) :
    c ∈ asVariable name ↔ c ∈ name := by
  simp only [List.mem_cons, List.not_mem_nil, or_false, not_or] at hc
  unfold asVariable
  split <;> simp [inBraces, hc]

theorem mem_substituteFrom {c : Char} (hc : c ∉ ['{', '}']) (name : Option (List Char))
    (cs : List Char) : c ∈ substituteFrom name cs ↔ c ∈ name.getD [] ∨ c ∈ cs := by
  have hopen : c ≠ '{' := fun h => hc (by simp [h])
  have hclose : c ≠ '}' := fun h => hc (by simp [h])
  induction cs generalizing name with
  | nil => cases name <;> simp [substituteFrom, hopen]
  | cons d ds ih =>
    cases name with
    | none =>
      unfold substituteFrom
      split
      · next hd => simp [ih, hd, hopen]
      · simp [ih]
    | some name =>
      unfold substituteFrom
      split
      · next hd => simp [ih, hd, hclose, mem_asVariable hc]
      · simp [ih, or_assoc]

theorem subset_of_mem_paramsFrom {param : List Char} {name : Option (List Char)} {cs : List Char}
    (h : param ∈ paramsFrom name cs) : param ⊆ name.getD [] ++ cs := by
  induction cs generalizing name with
  | nil => cases name <;> cases h
  | cons d ds ih =>
    cases name with
    | none =>
      have hrest := ih h
      split at hrest <;> exact List.subset_cons_of_subset d hrest
    | some name =>
      unfold paramsFrom at h
      split at h
      · have hrest (h : param ∈ paramsFrom none ds) : param ⊆ name ++ d :: ds :=
          List.subset_append_of_subset_right name (List.subset_cons_of_subset d (ih h))
        split at h
        · exact hrest h
        · rcases List.mem_cons.1 h with rfl | h
          · exact List.subset_append_left _ _
          · exact hrest h
      · simpa using ih h

end PathTemplate

theorem oneLine_substituteVariables {path : String} :
    OneLine (substituteVariables path) ↔ OneLine path := by
  unfold OneLine substituteVariables
  rw [String.toList_ofList, PathTemplate.mem_substituteFrom (by decide)]
  simp

theorem oneLine_of_mem_uniqueTemplateParams {path name : String} (hpath : OneLine path)
    (h : name ∈ uniqueTemplateParams path) : OneLine name := by
  obtain ⟨param, hparam, rfl⟩ := List.mem_map.1 (List.mem_eraseDups.1 h)
  intro hmem
  rw [String.toList_ofList] at hmem
  exact hpath (PathTemplate.subset_of_mem_paramsFrom hparam hmem)

namespace Document

theorem oneLine_parameterLine {name : String} : OneLine (parameterLine name) ↔ OneLine name := by
  have hupper (h : OneLine name) : OneLine (Text.toUpper name) :=
    fun hmem => h (Text.newline_mem_of_toUpper hmem)
  have hmark : OneLine "@" := by decide
  have hfront : OneLine " = REPLACE_WITH_" := by decide
  have hback : OneLine "_VALUE" := by decide
  simp only [parameterLine, oneLine_append, hmark, hfront, hback]
  constructor
  · intro h
    exact h.1.1.1.2
  · intro h
    simp [h, hupper h]

theorem oneLine_groupLines {heading : String} (hheading : OneLine heading) {declarations : List String} :
    (∀ line ∈ groupLines heading declarations, OneLine line) ↔
      ∀ line ∈ declarations, OneLine line := by
  have hblank : OneLine "" := by decide
  unfold groupLines
  split
  · next hnone => simp [List.isEmpty_iff.1 hnone]
  · simp [hblank, hheading]

theorem oneLine_queryPart {names : List String} (h : ∀ name ∈ names, OneLine name) :
    OneLine (queryPart names) := by
  have hitems : ∀ item ∈ names.map queryItem, OneLine item := by
    intro item hitem
    obtain ⟨name, hname, rfl⟩ := List.mem_map.1 hitem
    have hopen : OneLine "=\x7b\x7b" := by decide
    have hclose : OneLine "\x7d\x7d" := by decide
    exact (((h name hname).append hopen).append (h name hname)).append hclose
  unfold queryPart
  split
  · decide
  · exact OneLine.append (by decide) (OneLine.intercalate (by decide) hitems)

def IsComment (line : String) : Prop := "//".toList <+: line.toList

instance (line : String) : Decidable (IsComment line) :=
  inferInstanceAs (Decidable ("//".toList <+: line.toList))

theorem isComment_nonJsonBody (contentType : String) : IsComment (nonJsonBody contentType) := by
  have hfront : "//".toList <+: "// Non-JSON body (".toList := by decide
  unfold IsComment nonJsonBody
  simp only [String.toList_append, List.append_assoc]
  exact hfront.trans (List.prefix_append _ _)

theorem oneLine_nonJsonBody {contentType : String} :
    OneLine (nonJsonBody contentType) ↔ OneLine contentType := by
  have hfront : OneLine "// Non-JSON body (" := by decide
  have hback : OneLine "), provide the payload manually" := by decide
  constructor
  · intro h
    exact (oneLine_append.1 (oneLine_append.1 h).1).2
  · intro h
    exact (hfront.append h).append hback

end Document

namespace Operation

open Document

variable {op : Operation} {options : DocumentOptions}

theorem oneLine_writtenPath : OneLine op.writtenPath ↔ OneLine op.path := by
  unfold writtenPath
  split
  · next hempty =>
    rw [String.isEmpty_iff.1 hempty]
    decide
  · rfl

theorem oneLine_headerLines (op : Operation) : ∀ line ∈ op.headerLines, OneLine line := by
  have hcontent : OneLine "Content-Type: application/json" := by decide
  have hauthorization : OneLine "Authorization: Bearer \x7b\x7bauthToken\x7d\x7d" := by decide
  unfold headerLines
  split <;> split <;> simp [hcontent, hauthorization]

theorem oneLine_variableLines (hhost : OneLine options.host) :
    (∀ line ∈ op.variableLines options, OneLine line) ↔
      (∀ name ∈ uniqueTemplateParams op.writtenPath, OneLine name) ∧
        ∀ name ∈ op.parametersIn .query, OneLine name := by
  have hheading : OneLine "// Variables section - defines variables to use in the request" := by decide
  have hhostLine : OneLine ("@host = " ++ options.host) := OneLine.append (by decide) hhost
  have hport : OneLine ("@port = " ++ toString options.port) :=
    OneLine.append (by decide) (oneLine_toString options.port)
  have hbaseUrl : OneLine
      "@baseUrl = http://\x7b\x7bhost\x7d\x7d\x7b\x7b#if port\x7d\x7d:\x7b\x7bport\x7d\x7d\x7b\x7b/if\x7d\x7d" := by
    decide +kernel
  have htoken : OneLine "@authToken = REPLACE_WITH_YOUR_AUTH_TOKEN" := by decide
  have hauthentication : ∀ line ∈ (if op.authentication.isRequired then
      ["@authToken = REPLACE_WITH_YOUR_AUTH_TOKEN"] else []), OneLine line := by
    split <;> simp [htoken]
  have hparameters (names : List String) :
      (∀ line ∈ names.map parameterLine, OneLine line) ↔ ∀ name ∈ names, OneLine name := by
    simp [oneLine_parameterLine]
  simp only [variableLines, List.forall_mem_append, oneLine_groupLines (by decide : OneLine "// Path parameters"),
    oneLine_groupLines (by decide : OneLine "// Query parameters"),
    oneLine_groupLines (by decide : OneLine "// Authentication"), hparameters,
    iff_true_intro hauthentication, List.forall_mem_cons, hheading, hhostLine, hport, hbaseUrl]
  simp

theorem oneLine_headLines (hhost : OneLine options.host) (hverb : OneLine op.effectiveVerb.capitals) :
    (∀ line ∈ op.headLines options, OneLine line) ↔
      OneLine op.name ∧ OneLine op.path ∧ ∀ name ∈ op.parametersIn .query, OneLine name := by
  have hblank : OneLine "" := by decide
  have hmark : OneLine "### " := by decide
  have hbaseUrl : OneLine " \x7b\x7bbaseUrl\x7d\x7d" := by decide
  have htitle : OneLine ("### " ++ op.name) ↔ OneLine op.name := by simp [oneLine_append, hmark]
  have hrequest : OneLine op.requestText ↔
      OneLine op.path ∧ OneLine (queryPart (op.parametersIn .query)) := by
    simp [requestText, oneLine_append, hverb, hbaseUrl, oneLine_substituteVariables, oneLine_writtenPath]
  have hlines : (∀ line ∈ op.headLines options, OneLine line) ↔
      OneLine op.name ∧ (∀ line ∈ op.variableLines options, OneLine line) ∧ OneLine op.requestText := by
    simp only [headLines, List.forall_mem_append, List.forall_mem_cons, hblank, htitle,
      iff_true_intro op.oneLine_headerLines]
    simp [and_assoc]
  rw [hlines, oneLine_variableLines hhost, hrequest]
  constructor
  · intro ⟨hname, ⟨_, hqueries⟩, hpath, _⟩
    exact ⟨hname, hpath, hqueries⟩
  · intro ⟨hname, hpath, hqueries⟩
    have htokens (name : String) (h : name ∈ uniqueTemplateParams op.writtenPath) : OneLine name :=
      oneLine_of_mem_uniqueTemplateParams (oneLine_writtenPath.2 hpath) h
    exact ⟨hname, ⟨htokens, hqueries⟩, hpath, oneLine_queryPart hqueries⟩

/-- The content type in the comment that stands for a body that is not JSON. -/
def notedContentType? (op : Operation) : Option String :=
  if op.effectiveVerb.carriesPayload then
    op.body.bind fun body =>
      if body.kind = .single ∧ ¬isJsonContentType body.primaryContentType then
        some body.primaryContentType
      else none
  else none

/-- No text that a document takes over as it is written has a line break. -/
structure Unbroken (op : Operation) : Prop where
  name : OneLine op.name
  path : OneLine op.path
  queries : ∀ name ∈ op.parametersIn .query, OneLine name
  contentType : ∀ contentType ∈ op.notedContentType?, OneLine contentType

theorem placeholder_comment (h : op.sampledType? = none) : op.placeholder.2 ≠ .synthesized ∧
    ∃ comment, op.placeholder.1 = [comment] ∧ IsComment comment ∧
      (OneLine comment ↔ ∀ contentType ∈ op.notedContentType?, OneLine contentType) := by
  by_cases hpayload : op.effectiveVerb.carriesPayload
  · cases hbody : op.body with
    | none =>
      have hnoted : op.notedContentType? = none := by simp [notedContentType?, hbody]
      have hplaceholder : op.placeholder = ([noBodyModel], .missing) := by
        simp [placeholder, hpayload, hbody]
      rw [hplaceholder, hnoted]
      exact ⟨by simp, noBodyModel, rfl, by decide, iff_of_true (by decide) (by simp)⟩
    | some body =>
      by_cases hsingle : body.kind = .single
      · have hjson : ¬isJsonContentType body.primaryContentType := by
          simpa [sampledType?, hpayload, hbody, hsingle] using h
        have hnoted : op.notedContentType? = some body.primaryContentType := by
          simp [notedContentType?, hpayload, hbody, hsingle, hjson]
        have hplaceholder : op.placeholder = ([nonJsonBody body.primaryContentType],
            .nonJson body.primaryContentType) := by
          simp [placeholder, hpayload, hbody, hsingle]
        rw [hplaceholder, hnoted]
        refine ⟨by simp, nonJsonBody body.primaryContentType, rfl, isComment_nonJsonBody _, ?_⟩
        simpa using oneLine_nonJsonBody
      · have hnoted : op.notedContentType? = none := by simp [notedContentType?, hbody, hsingle]
        have hplaceholder : op.placeholder = ([unsupportedBody], .unsupported body.kind) := by
          simp [placeholder, hpayload, hbody, hsingle]
        rw [hplaceholder, hnoted]
        exact ⟨by simp, unsupportedBody, rfl, by decide, iff_of_true (by decide) (by simp)⟩
  · have hnoted : op.notedContentType? = none := by simp [notedContentType?, hpayload]
    have hplaceholder : op.placeholder = ([noBodyAllowed], .notApplicable) := by
      simp [placeholder, hpayload]
    rw [hplaceholder, hnoted]
    exact ⟨by simp, noBodyAllowed, rfl, by decide, iff_of_true (by decide) (by simp)⟩

/-- The document has, line by line, the lines of its grammar up to the body, and a body that is not
synthesized is one comment. -/
def Conforms (op : Operation) (options : DocumentOptions) (document : RequestDocument) : Prop :=
  ∃ body, Text.split '\n' document.contents = op.headLines options ++ body ∧
    (document.bodyStatus ≠ .synthesized → ∃ comment, body = [comment] ∧ IsComment comment)

theorem conforms_sampled (op : Operation) (options : DocumentOptions) (lines : List String) :
    op.Conforms options (op.document options lines .synthesized) ↔
      ∀ line ∈ op.headLines options, OneLine line := by
  have hhead : op.headLines options ≠ [] := by simp [headLines]
  unfold Conforms
  rw [document_contents, draft_head]
  constructor
  · intro ⟨body, hsplit, _⟩ line hline
    apply Text.oneLine_of_mem_split
    rw [hsplit]
    exact List.mem_append_left body hline
  · intro h
    by_cases hlines : lines = []
    · refine ⟨[], ?_, by simp [document]⟩
      rw [hlines, List.append_nil, Text.split_intercalate hhead h]
    · exact ⟨_, Text.split_intercalate_append h hlines, by simp [document]⟩

theorem conforms_comment (op : Operation) (options : DocumentOptions) {comment : String}
    (hcomment : IsComment comment) {status : BodyStatus} (hstatus : status ≠ .synthesized) :
    op.Conforms options (op.document options [comment] status) ↔
      (∀ line ∈ op.headLines options, OneLine line) ∧ OneLine comment := by
  unfold Conforms
  rw [document_contents, draft_head]
  constructor
  · intro ⟨body, hsplit, hbody⟩
    have hhead : ∀ line ∈ op.headLines options, OneLine line := by
      intro line hline
      apply Text.oneLine_of_mem_split
      rw [hsplit]
      exact List.mem_append_left body hline
    -- The lines up to the body are split off, so that the rest is what the comment is split into.
    rw [Text.split_intercalate_append hhead (by simp), List.append_cancel_left_eq,
      String.intercalate_singleton] at hsplit
    obtain ⟨line, rfl, _⟩ := hbody hstatus
    exact ⟨hhead, Text.oneLine_of_split hsplit⟩
  · intro ⟨hhead, hline⟩
    refine ⟨[comment], ?_, fun _ => ⟨comment, rfl, hcomment⟩⟩
    rw [Text.split_intercalate_append hhead (by simp), String.intercalate_singleton,
      Text.split_line hline]

theorem notedContentType?_of_sampledType {root : TypeId} (h : op.sampledType? = some root) :
    op.notedContentType? = none := by
  unfold sampledType? at h
  unfold notedContentType?
  split at h
  · next hpayload =>
    obtain ⟨body, hbody, h⟩ := Option.bind_eq_some_iff.1 h
    split at h
    · next hsampled => simp [hpayload, hbody, hsampled]
    · cases h
  · cases h

/-- A document has the lines of its grammar exactly when the texts that it takes over have no line
break. -/
theorem assemble_conforms_iff [Spelling]
    (g : TypeGraph) (options : AssemblyOptions) (op : Operation)
    (hhost : OneLine options.document.host) (hverb : OneLine op.effectiveVerb.capitals)
    (s : SynthesisState) : Ends (fun _ => True) (assemble g options op) s fun document _ =>
      op.Conforms options.document document ↔ op.Unbroken := by
  have hhead := op.oneLine_headLines hhost hverb
  rw [op.assemble_eq]
  cases hsampled : op.sampledType? with
  | some root =>
    have hnoted := notedContentType?_of_sampledType hsampled
    have hbody : Ends (fun _ => True) (op.bodySection g options.maxDepth) s fun body _ =>
        body.2 = .synthesized := by
      rw [bodySection_of_sampledType hsampled]
      exact .bind (.anyhow _ s) fun lines t _ => .pure rfl
    apply Ends.bind hbody
    rintro ⟨lines, status⟩ t rfl
    apply Ends.pure
    rw [conforms_sampled, hhead]
    constructor
    · intro ⟨hname, hpath, hqueries⟩
      exact ⟨hname, hpath, hqueries, by simp [hnoted]⟩
    · intro h
      exact ⟨h.name, h.path, h.queries⟩
  | none =>
    obtain ⟨hstatus, comment, hlines, hcomment, hnoted⟩ := placeholder_comment hsampled
    rw [bodySection_of_placeholder hsampled]
    apply Ends.bind (M := fun body _ => body = op.placeholder) (.pure rfl)
    rintro _ t rfl
    apply Ends.pure
    rw [hlines, conforms_comment op options.document hcomment hstatus, hhead, hnoted]
    constructor
    · intro ⟨⟨hname, hpath, hqueries⟩, htype⟩
      exact ⟨hname, hpath, hqueries, htype⟩
    · intro h
      exact ⟨⟨h.name, h.path, h.queries⟩, h.contentType⟩

end Operation

namespace OpenApi

/-- The files are documents of the operations, one for each, and a document has the lines of its
grammar exactly when the texts of its operation have no line break. -/
def ConformUnlessBroken [Spelling] (source : Source) (options : AssemblyOptions) (service : Service)
    (ops : List Operation) (files : List RenderedFile) : Prop :=
  List.Forall₂ (fun op file => ∃ document,
    (op.inService service).Assembles source.types options document ∧ document.contents = file.contents ∧
      ((op.inService service).Conforms options.document document ↔ (op.inService service).Unbroken))
    ops files

/-- The documents of a description have the lines of their grammar, and a comment for a body that is
not synthesized, unless a text that they take over has a line break. -/
theorem Api.documents_conform_iff [Spelling] {format : Notation} {text : String} {api : Api}
    (hread : Api.ofText? format text = some api) {source : Source} (hsource : api.source = .ok source)
    (options : GenerateOptions) (hhost : OneLine options.assembly.document.host) :
    ∃ service, source.services = [service] ∧
      List.Forall₂ Describes api.operations service.operations ∧
      Succeeds (generate source options) fun result => ∃ files models, result.1 = files ++ models ∧
        ConformUnlessBroken source options.assembly service (options.selected service.operations)
          files := by
  obtain ⟨service, hservices, hgenerate⟩ := Api.writes_of_source hsource options
  have hservice : service ∈ source.services := by simp [hservices]
  obtain ⟨-, hdescribes⟩ := api.describes_of_source hsource service hservice
  obtain ⟨-, hnames⟩ := api.service_of_source hsource service hservice
  -- The verb is one of a fixed list, so its capitals are checked entry by entry.
  have hverb (op : Operation) (hop : op ∈ service.operations) :
      OneLine (op.inService service).effectiveVerb.capitals := by
    have hall : ∀ verb ∈ verbKeys.map Prod.snd, OneLine (Verb.capitals ⟨verb⟩) := by decide +kernel
    obtain ⟨path, verb, apiOp, hentry, -, -, heq⟩ := hnames op hop
    have hsame : (op.inService service).effectiveVerb = ⟨verb⟩ := by
      unfold Operation.inService
      split <;> simp [Operation.effectiveVerb, heq]
    rw [hsame]
    exact hall verb (verb_mem_of_ofText hread hentry)
  refine ⟨service, hservices, hdescribes, hgenerate.mono ?_⟩
  rintro result ⟨documents, models, hwrites, hfiles⟩
  refine ⟨_, models, hfiles, ?_⟩
  unfold ConformUnlessBroken
  rw [List.forall₂_map_right_iff, List.forall₂_iff_zip]
  obtain ⟨hlength, htexts⟩ := List.forall₂_iff_zip.1 hwrites.texts
  refine ⟨hlength, fun {op d} hmem => ?_⟩
  obtain ⟨document, ⟨s, t, hassemble⟩, hcontents⟩ := htexts hmem
  have hop : op ∈ service.operations := (List.mem_filter.1 (List.of_mem_zip hmem).1).1
  have hconforms := Operation.assemble_conforms_iff source.types options.assembly
    (op.inService service) hhost (hverb op hop) s
  exact ⟨document, ⟨s, t, hassemble⟩, hcontents, hconforms.of_ok hassemble⟩

attribute [local instance] Spelling.plain

theorem listedPets_conform_iff : ∃ api source,
    Api.ofText? .json (oneOperation "list") = some api ∧ api.source = .ok source ∧
      OneLine documentsOnly.assembly.document.host ∧ ∃ service, source.services = [service] ∧
        List.Forall₂ Describes api.operations service.operations ∧
        Succeeds (generate source documentsOnly) fun result => ∃ files models,
          result.1 = files ++ models ∧ ConformUnlessBroken source documentsOnly.assembly service
            (documentsOnly.selected service.operations) files := by
  have hall : ((Api.ofText? .json (oneOperation "list")).bind fun api => api.source.toOption).isSome =
      true := by
    decide +kernel
  obtain ⟨source, hsome⟩ := Option.isSome_iff_exists.1 hall
  obtain ⟨api, hread, hsource⟩ := Option.bind_eq_some_iff.1 hsome
  have hok : api.source = .ok source := ok_of_toOption hsource
  have hhost : OneLine documentsOnly.assembly.document.host := by decide
  exact ⟨api, source, hread, hok, hhost, Api.documents_conform_iff hread hok documentsOnly hhost⟩

/-- An id with a line break goes on in the line below the title, which should be blank: the document has
the lines of no operation. -/
theorem brokenId_breaks : ∃ api source files stats,
    Api.ofText? .json (oneOperation "list\\npets") = some api ∧ api.source = .ok source ∧
      OneLine documentsOnly.assembly.document.host ∧
      generate source documentsOnly = .ok (files, stats) ∧
      ∃ file ∈ files, (Text.split '\n' file.contents).take 2 = ["### list", "pets"] ∧
        ∀ service ∈ source.services, ∀ op ∈ service.operations, ∀ body,
          Text.split '\n' file.contents ≠
            (op.inService service).headLines documentsOnly.assembly.document ++ body := by
  have hall : ((Api.ofText? .json (oneOperation "list\\npets")).bind fun api =>
      api.source.toOption.bind fun source =>
        (generate source documentsOnly).toOption.map fun result =>
          result.1.any fun file => (Text.split '\n' file.contents).take 2 == ["### list", "pets"]) =
            some true := by
    decide +kernel
  obtain ⟨api, source, files, stats, hread, hsource, hgenerate, file, hfile, hbroken⟩ :=
    exists_file hall
  have htitle : (Text.split '\n' file.contents).take 2 = ["### list", "pets"] := by simpa using hbroken
  refine ⟨api, source, files, stats, hread, hsource, by decide, hgenerate, file, hfile, htitle, ?_⟩
  intro service _ op _ body hsplit
  rw [hsplit] at htitle
  simp [Operation.headLines] at htitle

end OpenApi

end RequestDocs
