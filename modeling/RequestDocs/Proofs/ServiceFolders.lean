import RequestDocs.OpenApi.Loading
import RequestDocs.Proofs.FilePaths
import RequestDocs.Proofs.Sources
/-!
# Folders of services

Every file of a description is in the folder of its service, as long as no operation id climbs out of
it: an id is the only part of a path that is taken over as it is written.
-/

namespace RequestDocs

open FilePath

namespace Layout

variable {service : String}

private theorem address_of_folder (hservice : IsIdentifier service) (hne : service ≠ "")
    {component : String} (hstays : stays 0 (pieces component) = true) :
    (resolve (service ++ "/" ++ component)).head? = some service :=
  resolve_below (isPlain_of_isIdentifier hservice) hne (isName_of_isIdentifier hservice hne) hstays

theorem resolve_modelAddress (hservice : IsIdentifier service) (hne : service ≠ "") {name : String}
    (hname : IsIdentifier name) : (resolve (modelAddress service name)).head? = some service := by
  have hplain := isPlain_of_isIdentifier hservice
  have hmodels : IsPlain modelsDirectory := by decide
  have hfile : IsPlain (name ++ "." ++ modelExtension) :=
    ((isPlain_of_isIdentifier hname).append (by decide)).append (by decide)
  have hfilename : IsName (name ++ "." ++ modelExtension) :=
    isName_of_mem (show 'j' ∈ _ by simp [modelExtension]) (by decide)
  have hfolder : ofComponents [service, modelsDirectory] = service ++ "/" ++ modelsDirectory := by
    have hfirst : push "" service = service := by simp [push]
    change push (push "" service) modelsDirectory = _
    rw [hfirst, push_eq hne (getLast_ne_slash hplain) (head_ne_slash hmodels)]
  have haddress : modelAddress service name =
      service ++ "/" ++ (modelsDirectory ++ "/" ++ (name ++ "." ++ modelExtension)) := by
    have hfolderne : service ++ "/" ++ modelsDirectory ≠ "" := by simp [modelsDirectory]
    have hlast : (service ++ "/" ++ modelsDirectory).toList.getLast? ≠ some '/' := by
      simp [modelsDirectory]
    rw [modelAddress, hfolder, push_eq hfolderne hlast (head_ne_slash hfile)]
    simp only [String.append_assoc]
  rw [haddress]
  refine address_of_folder hservice hne ?_
  rw [pieces_below hmodels (by decide), pieces_plain hfile (by simp [modelExtension])]
  rw [stays_cons (isName_of_isIdentifier (by decide) (by decide)), stays_cons hfilename]
  rfl

theorem resolve_documentAddress (hservice : IsIdentifier service) (hne : service ≠ "")
    {group name verb suffix : String} (hgroup : IsPlain group) (hverb : IsPlain verb)
    (hsuffix : IsIdentifier suffix) (hname : stays 1 (innerPieces name) = true) :
    (resolve (documentAddress service (group ++ "_" ++ name ++ "_" ++ verb ++ suffix))).head? =
      some service := by
  have hplain := isPlain_of_isIdentifier hservice
  have hfront : IsPlain (group ++ "_") := hgroup.append (by decide)
  have hback : IsPlain ("_" ++ verb ++ suffix ++ "." ++ Document.extension) := by
    have hverb' : IsPlain ("_" ++ verb) := IsPlain.append (by decide) hverb
    exact ((hverb'.append (isPlain_of_isIdentifier hsuffix)).append (by decide)).append (by decide)
  have hhead : (group ++ "_" ++ name ++ "_" ++ verb ++ suffix ++ "." ++
      Document.extension).toList.head? ≠ some '/' := by
    cases hlist : group.toList with
    | nil => simp [hlist]
    | cons c cs => simpa [hlist] using hgroup c (by simp [hlist])
  have haddress : documentAddress service (group ++ "_" ++ name ++ "_" ++ verb ++ suffix) =
      service ++ "/" ++ (group ++ "_" ++ name ++
        ("_" ++ verb ++ suffix ++ "." ++ Document.extension)) := by
    have hfolder : ofComponents [service] = service := by simp [ofComponents, push]
    rw [documentAddress, hfolder, push_eq hne (getLast_ne_slash hplain) hhead]
    simp only [String.append_assoc]
  rw [haddress]
  exact address_of_folder hservice hne (stays_joined hfront hback (by simp) (by simp) hname)

end Layout

namespace OpenApi

theorem serviceName_isIdentifier [Spelling] (title : String) :
    IsIdentifier (serviceName title) := by
  unfold serviceName
  split
  · decide
  · exact (Naming.isTypeName_typeName title).isIdentifier

theorem serviceName_ne_empty [Spelling] (title : String) : serviceName title ≠ "" := by
  unfold serviceName
  split
  · decide
  · exact (Naming.isTypeName_typeName title).ne_empty

theorem isPlain_group [Spelling] (path : String) (op : ApiOperation) :
    IsPlain (Text.toLower (operationGroup path op)) := by
  have hsanitized (text : Option String) (group : String)
      (h : (text.map Naming.sanitize).filter (!·.isEmpty) = some group) :
      ∀ c ∈ group.toList, c.isAlphanum ∨ c = '_' := by
    obtain ⟨hgroup, -⟩ := Option.filter_eq_some_iff.1 h
    obtain ⟨s, -, rfl⟩ := Option.map_eq_some_iff.1 hgroup
    exact fun c => Naming.mem_sanitize
  have hchars : ∀ c ∈ (operationGroup path op).toList, c.isAlphanum ∨ c = '_' := by
    unfold operationGroup
    simp only
    cases htag : (op.tags.head?.map Naming.sanitize).filter (!·.isEmpty) with
    | some group => exact hsanitized _ _ htag
    | none =>
      cases hsegment : ((firstPlainSegment? path).map Naming.sanitize).filter (!·.isEmpty) with
      | some group => exact hsanitized _ _ hsegment
      | none => exact fun c hc => .inl ((by decide : IsIdentifier defaultGroup) c hc)
  have hascii (c : Char) (hc : c ∈ (operationGroup path op).toList) : c.toNat < 128 := by
    rcases hchars c hc with h | rfl
    · exact Text.toNat_lt_of_isAlphanum h
    · decide
  rw [Text.toLower_of_ascii hascii]
  intro c hc
  rw [String.toList_ofList] at hc
  obtain ⟨d, hd, rfl⟩ := List.mem_map.1 hc
  rcases hchars d hd with h | rfl
  · have hlower := Text.isAlphanum_toLower h
    intro heq
    simp [heq] at hlower
  · decide

theorem verb_mem_of_ofText {format : Notation} {text : String} {api : Api}
    (h : Api.ofText? format text = some api) {path verb : String} {op : ApiOperation}
    (hop : (path, verb, op) ∈ api.operations) : verb ∈ verbKeys.map Prod.snd := by
  have hread : ∃ members, api = Api.ofMembers members := by
    have hjson (value : Json) (h : Api.read? value = some api) : ∃ members, api = Api.ofMembers members := by
      unfold Api.read? at h
      split at h
      · obtain ⟨members, -, heq⟩ := Option.map_eq_some_iff.1 h
        exact ⟨members, heq.symm⟩
      · cases h
    cases format with
    | json =>
      obtain ⟨value, -, hvalue⟩ := Option.bind_eq_some_iff.1 h
      exact hjson value hvalue
    | yaml =>
      obtain ⟨node, -, hnode⟩ := Option.bind_eq_some_iff.1 h
      obtain ⟨value, -, hvalue⟩ := Option.bind_eq_some_iff.1 hnode
      exact hjson value hvalue
  obtain ⟨members, rfl⟩ := hread
  obtain ⟨⟨_, item⟩, hitem, hop⟩ := List.mem_flatMap.1 hop
  obtain ⟨⟨_, _⟩, hmem, heq⟩ := List.mem_map.1 hop
  cases heq
  obtain ⟨⟨_, value⟩, -, heq⟩ := List.mem_map.1 hitem
  cases heq
  obtain ⟨⟨key, verb'⟩, hkey, hvalue⟩ := List.mem_filterMap.1 hmem
  obtain ⟨_, -, heq⟩ := Option.map_eq_some_iff.1 hvalue
  cases heq
  exact List.mem_map.2 ⟨_, hkey, rfl⟩

def Api.Names [Spelling] (api : Api) (request : Operation) : Prop :=
  ∃ path verb op, (path, verb, op) ∈ api.operations ∧ request.name = operationName path verb op ∧
    request.group = operationGroup path op ∧ request.verb = some ⟨verb⟩

structure Describes [Spelling] (entry : String × String × ApiOperation) (request : Operation) :
    Prop where
  name : request.name = operationName entry.1 entry.2.1 entry.2.2
  group : request.group = operationGroup entry.1 entry.2.2
  verb : request.verb = some ⟨entry.2.1⟩
  path : request.path = entry.1

theorem Api.describes_of_source [Spelling]
    {api : Api} {source : Source} (h : api.source = .ok source) :
    ∀ service ∈ source.services, service.name = serviceName api.title ∧
      List.Forall₂ Describes api.operations service.operations := by
  have hrequests : Ends (fun _ => True) (describeOperations api) .initial fun requests _ =>
      List.Forall₂ Describes api.operations requests := by
    apply Ends.mapM_forall₂
    rintro ⟨path, verb, op⟩ - s
    apply Ends.lift_cases fun _ _ => trivial
    intro parameters _
    apply Ends.bind (.anyhow (describeBody api.components op) s)
    intro body t _
    exact .pure ⟨rfl, rfl, rfl, rfl⟩
  unfold Ends at hrequests
  unfold Api.source at h
  split at h
  · cases h
  · next requests s hrun =>
    cases h
    rw [hrun] at hrequests
    intro service hservice
    rw [List.mem_singleton.1 hservice]
    exact ⟨rfl, hrequests⟩

theorem Api.service_of_source [Spelling]
    {api : Api} {source : Source} (h : api.source = .ok source) :
    ∀ service ∈ source.services, service.name = serviceName api.title ∧
      ∀ request ∈ service.operations, api.Names request := by
  intro service hservice
  obtain ⟨hname, hdescribes⟩ := api.describes_of_source h service hservice
  refine ⟨hname, fun request hrequest => ?_⟩
  obtain ⟨i, hi, rfl⟩ := List.mem_iff_getElem.1 hrequest
  have hlength : i < api.operations.length := hdescribes.length_eq ▸ hi
  have hentry := hdescribes.get hlength hi
  exact ⟨_, _, _, List.get_mem api.operations ⟨i, hlength⟩, hentry.name, hentry.group, hentry.verb⟩

/-- No operation id leads out of the folder of the service: between its slashes it climbs no further
than it has gone down before. -/
def Api.IdsStay [Spelling] (api : Api) (options : GenerateOptions) : Prop :=
  ∀ path verb op, (path, verb, op) ∈ api.operations →
    options.exclusionReason (operationName path verb op) = none →
    stays 1 (innerPieces (operationName path verb op)) = true

/-- All files of a description whose operation ids do not climb are in the folder of its service. -/
theorem Api.files_stay [Spelling] {format : Notation} {text : String} {api : Api}
    (hread : Api.ofText? format text = some api) {source : Source} (hsource : api.source = .ok source)
    (options : GenerateOptions) (hids : api.IdsStay options) :
    Succeeds (generate source options) fun result =>
      ∀ file ∈ result.1, (resolve file.path).head? = some (serviceName api.title) := by
  refine (generate_paths (Api.inRange_of_source hsource) options).mono fun result hpaths file hfile => ?_
  obtain ⟨service, hservice, hpath⟩ := hpaths file hfile
  obtain ⟨hname, hrequests⟩ := api.service_of_source hsource service hservice
  have hidentifier := serviceName_isIdentifier api.title
  have hne := serviceName_ne_empty api.title
  rcases hpath with ⟨request, hrequest, hselects, suffix, hsuffix, hpath⟩ | ⟨name, hmodel, hpath⟩
  · obtain ⟨path, verb, op, hop, hid, hgroup, hverb⟩ := hrequests request hrequest
    -- The verb is one of a fixed list, so its lower case is checked entry by entry.
    have hplainverb : IsPlain (Text.toLower verb) := by
      have hall : ∀ verb ∈ verbKeys.map Prod.snd, IsPlain (Text.toLower verb) := by decide +kernel
      exact hall verb (verb_mem_of_ofText hread hop)
    have hstem : request.documentStem = Text.toLower (operationGroup path op) ++ "_" ++
        operationName path verb op ++ "_" ++ Text.toLower verb := by
      simp [Operation.documentStem, Naming.documentStem, Operation.effectiveVerb, hid, hgroup, hverb]
    rw [hpath, hname, hstem]
    refine Layout.resolve_documentAddress hidentifier hne (isPlain_group path op) hplainverb hsuffix ?_
    exact hids path verb op hop (hid ▸ hselects)
  · rw [hpath, hname]
    exact Layout.resolve_modelAddress hidentifier hne hmodel

def oneOperation (id : String) : String :=
  "\x7b\"openapi\":\"3.1.0\",\"info\":\x7b\"title\":\"Pets\",\"version\":\"1\"\x7d," ++
    "\"paths\":\x7b\"/\":\x7b\"get\":\x7b\"operationId\":\"" ++ id ++ "\"\x7d\x7d\x7d\x7d"

def documentsOnly : GenerateOptions := ⟨⟨.default, Synthesis.defaultMaxDepth⟩, false, none, none, ""⟩

attribute [local instance] Spelling.plain

theorem wanderingId_files_stay : ∃ api source,
    Api.ofText? .json (oneOperation "pets/../list") = some api ∧ api.source = .ok source ∧
      api.IdsStay documentsOnly ∧ Succeeds (generate source documentsOnly) fun result =>
        ∀ file ∈ result.1, (resolve file.path).head? = some (serviceName api.title) := by
  have hall : ((Api.ofText? .json (oneOperation "pets/../list")).bind fun api =>
      api.source.toOption.map fun _ => api.operations.all fun entry =>
        stays 1 (innerPieces (operationName entry.1 entry.2.1 entry.2.2))) = some true := by
    decide +kernel
  obtain ⟨api, hread, hsome⟩ := Option.bind_eq_some_iff.1 hall
  obtain ⟨source, hsource, hstays⟩ := Option.map_eq_some_iff.1 hsome
  have hok : api.source = .ok source := ok_of_toOption hsource
  have hids : api.IdsStay documentsOnly :=
    fun path verb op hop _ => List.all_eq_true.1 hstays (path, verb, op) hop
  exact ⟨api, source, hread, hok, hids, Api.files_stay hread hok documentsOnly hids⟩

theorem exists_file [Spelling]
    {text : String} {options : GenerateOptions} {p : Api → RenderedFile → Bool}
    (h : ((Api.ofText? .json text).bind fun api => api.source.toOption.bind fun source =>
      (generate source options).toOption.map fun result => result.1.any (p api)) = some true) :
    ∃ api source files stats, Api.ofText? .json text = some api ∧ api.source = .ok source ∧
      generate source options = .ok (files, stats) ∧ ∃ file ∈ files, p api file = true := by
  obtain ⟨api, hread, h⟩ := Option.bind_eq_some_iff.1 h
  obtain ⟨source, hsource, h⟩ := Option.bind_eq_some_iff.1 h
  obtain ⟨⟨files, stats⟩, hgenerate, hany⟩ := Option.map_eq_some_iff.1 h
  exact ⟨api, source, files, stats, hread, ok_of_toOption hsource, ok_of_toOption hgenerate,
    List.any_eq_true.1 hany⟩

/-- An id that climbs out of the folder takes its document along. -/
theorem climbingId_leaves : ∃ api source files stats,
    Api.ofText? .json (oneOperation "/../../list") = some api ∧ api.source = .ok source ∧
      generate source documentsOnly = .ok (files, stats) ∧
        ∃ file ∈ files, (resolve file.path).head? ≠ some (serviceName api.title) := by
  have hall : ((Api.ofText? .json (oneOperation "/../../list")).bind fun api =>
      api.source.toOption.bind fun source =>
        (generate source documentsOnly).toOption.map fun result =>
          result.1.any fun file => (resolve file.path).head? != some (serviceName api.title)) =
            some true := by
    decide +kernel
  obtain ⟨api, source, files, stats, hread, hsource, hgenerate, file, hfile, hhead⟩ :=
    exists_file hall
  exact ⟨api, source, files, stats, hread, hsource, hgenerate, file, hfile, by simpa using hhead⟩

end OpenApi

end RequestDocs
