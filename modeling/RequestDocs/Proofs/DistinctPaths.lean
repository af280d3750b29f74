import RequestDocs.Proofs.DocumentFiles
import RequestDocs.Proofs.FileKinds
import RequestDocs.Proofs.ServiceFolders
/-!
# Distinct paths

No two files of a description have the same path. Documents are apart by their stems, which get a
number where they are taken, models by their names, and both from each other by their extensions;
neither stems nor names start at the root of the file system, so that none replaces its folder.
-/

namespace RequestDocs

namespace FilePath

def IsRelative (s : String) : Prop := s.toList.head? ≠ some '/'

theorem IsRelative.append {s t : String} (hs : IsRelative s) (ht : IsRelative t) :
    IsRelative (s ++ t) := by
  unfold IsRelative
  rw [String.toList_append, List.head?_append]
  cases hlist : s.toList.head? with
  | none => exact ht
  | some c => exact fun h => hs (hlist.trans h)

theorem IsRelative.append_of_ne {s : String} (hs : IsRelative s) (hne : s ≠ "") (t : String) :
    IsRelative (s ++ t) := by
  obtain ⟨c, cs, hlist⟩ := List.exists_cons_of_ne_nil fun h => hne (String.toList_eq_nil_iff.1 h)
  unfold IsRelative at hs ⊢
  rw [String.toList_append, hlist]
  rwa [hlist] at hs

theorem push_injective {path c c' : String} (hc : IsRelative c) (hc' : IsRelative c')
    (h : push path c = push path c') : c = c' := by
  unfold push at h
  rw [if_neg hc, if_neg hc'] at h
  apply String.toList_inj.1
  have hlist := congrArg String.toList h
  split at hlist
  · simpa only [String.toList_append, List.append_cancel_left_eq] using hlist
  · simpa only [String.toList_append, List.append_cancel_left_eq] using hlist

theorem stem_injective {path extension stem stem' : String} (hstem : IsRelative stem)
    (hstem' : IsRelative stem')
    (h : push path (stem ++ "." ++ extension) = push path (stem' ++ "." ++ extension)) :
    stem = stem' := by
  have hfile {s : String} (hs : IsRelative s) : IsRelative (s ++ "." ++ extension) := by
    rw [String.append_assoc]
    apply hs.append
    exact IsRelative.append_of_ne (by unfold IsRelative; decide) (by decide) extension
  have hlist := congrArg String.toList (push_injective (hfile hstem) (hfile hstem') h)
  apply String.toList_inj.1
  simpa only [String.toList_append, List.append_assoc, List.append_cancel_right_eq] using hlist

end FilePath

namespace Layout

/-- The files of a service have paths of their own if its documents have stems and its models names of
their own. -/
theorem nodup_servicePaths (label : String) (service : ServiceOutput)
    (hstems : (service.documents.map (·.stem)).Nodup) (hnames : service.modelNames.Nodup)
    (hdocuments : ∀ d ∈ service.documents, FilePath.IsRelative d.stem)
    (hmodels : ∀ m ∈ service.models, FilePath.IsRelative m.name) :
    ((serviceFiles label service).map (·.path)).Nodup := by
  have hpaths : ((service.documents.map (·.stem)).map (documentAddress service.name)).Nodup := by
    apply List.Nodup.map_on _ hstems
    intro stem hstem stem' hstem' heq
    obtain ⟨d, hd, rfl⟩ := List.mem_map.1 hstem
    obtain ⟨d', hd', rfl⟩ := List.mem_map.1 hstem'
    exact FilePath.stem_injective (hdocuments d hd) (hdocuments d' hd') heq
  have hpaths' : (service.modelNames.map (modelAddress service.name)).Nodup := by
    apply List.Nodup.map_on _ hnames
    intro name hname name' hname' heq
    obtain ⟨m, hm, rfl⟩ := List.mem_map.1 hname
    obtain ⟨m', hm', rfl⟩ := List.mem_map.1 hname'
    exact FilePath.stem_injective (hmodels m hm) (hmodels m' hm') heq
  have happart : List.Disjoint ((service.documents.map (·.stem)).map (documentAddress service.name))
      (service.modelNames.map (modelAddress service.name)) := by
    intro path hdocument hmodel
    rw [List.map_map] at hdocument
    obtain ⟨d, -, rfl⟩ := List.mem_map.1 hdocument
    rw [ServiceOutput.modelNames, List.map_map] at hmodel
    obtain ⟨m, -, heq⟩ := List.mem_map.1 hmodel
    apply not_endsIn_both (renderedModel label service m)
    refine ⟨?_, endsIn_renderedModel label service m⟩
    have hend := endsIn_renderedDocument service.name d
    unfold RenderedFile.endsIn at hend ⊢
    change (modelAddress service.name m.name) = documentAddress service.name d.stem at heq
    rwa [show (renderedModel label service m).path = (renderedDocument service.name d).path from heq]
  have hall : (serviceFiles label service).map (·.path) =
      (service.documents.map (·.stem)).map (documentAddress service.name) ++
        service.modelNames.map (modelAddress service.name) := by
    rw [serviceFiles, List.map_append, ServiceOutput.modelNames]
    simp only [List.map_map]
    rfl
  rw [hall]
  exact List.nodup_append'.2 ⟨hpaths, hpaths', happart⟩

end Layout

theorem generateDocuments_distinct [Spelling]
    (g : TypeGraph) (options : GenerateOptions) (service : Service)
    (used : List String) (ops : List Operation) (s : RunState) :
    Ends (fun _ => True) (generateDocuments g options service used ops) s fun documents _ =>
      (documents.map (·.stem)).Nodup ∧ ∀ d ∈ documents, d.stem ∉ used := by
  induction ops generalizing used s with
  | nil => exact .pure ⟨List.nodup_nil, by simp⟩
  | cons op ops ih =>
    unfold generateDocuments
    split
    · apply Ends.bind (.anyhow _ s)
      intro _ t _
      exact ih used t
    · apply Ends.bind (.anyhow _ s)
      intro document t _
      apply Ends.bind (ih _ t)
      rintro documents u ⟨hnodup, hfresh⟩
      -- The stem joins those in use before the other documents get theirs.
      apply Ends.pure
      constructor
      · rw [List.map_cons, List.nodup_cons]
        refine ⟨fun hmem => ?_, hnodup⟩
        obtain ⟨d, hd, heq⟩ := List.mem_map.1 hmem
        exact hfresh d hd (heq ▸ List.mem_cons_self)
      · rintro d (_ | ⟨_, hd⟩)
        · exact Naming.unique_not_mem document.stem used
        · exact fun hused => hfresh d hd (List.mem_cons_of_mem _ hused)

theorem generateService_distinct [Spelling]
    (source : Source) (options : GenerateOptions) (service : Service)
    (s : RunState) : Ends (fun _ => True) (generateService source options service) s fun output _ =>
      (output.documents.map (·.stem)).Nodup := by
  apply Ends.bind (.anyhow _ s)
  intro _ t _
  apply Ends.bind (generateDocuments_distinct source.types options service [] service.operations t)
  rintro documents u ⟨hnodup, -⟩
  split
  · apply Ends.bind (.anyhow _ u)
    intro models v _
    exact .pure hnodup
  · exact .pure hnodup

namespace OpenApi

theorem Api.Names.isRelative_documentStem [Spelling]
    {api : Api} {request : Operation} (h : api.Names request)
    (suffix : String) : FilePath.IsRelative (request.documentStem ++ suffix) := by
  obtain ⟨path, verb, op, -, -, hgroup, -⟩ := h
  have hfront : FilePath.IsRelative (Text.toLower request.group ++ "_") := by
    rw [hgroup]
    apply FilePath.head_ne_slash
    exact (isPlain_group path op).append (by decide)
  have hstem : request.documentStem ++ suffix = Text.toLower request.group ++ "_" ++
      (request.name ++ "_" ++ Text.toLower request.effectiveVerb.token ++ suffix) := by
    simp only [Operation.documentStem, Naming.documentStem, String.append_assoc]
  rw [hstem]
  exact hfront.append_of_ne (by simp) _

/-- No two files of a description have the same path. -/
theorem Api.nodup_paths [Spelling] {api : Api} {source : Source} (hsource : api.source = .ok source)
    (options : GenerateOptions) :
    Succeeds (generate source options) fun result => (result.1.map (·.path)).Nodup := by
  obtain ⟨service, documents, models, t, hservices, hrun, hgenerate⟩ :=
    Api.exists_run_of_source hsource options
  have hservice : service ∈ source.services := by simp [hservices]
  refine hgenerate.mono fun result hfiles => ?_
  rw [hfiles]
  have hstems := (generateService_distinct source options service _).of_ok hrun.generated
  have hdocuments : ∀ d ∈ documents, FilePath.IsRelative d.stem := by
    intro d hd
    obtain ⟨request, hrequest, -, suffix, -, hstem⟩ := hrun.stems d hd
    obtain ⟨-, hrequests⟩ := api.service_of_source hsource service hservice
    rw [hstem]
    exact (hrequests request hrequest).isRelative_documentStem suffix
  have hmodels : ∀ m ∈ models.map Prod.snd, FilePath.IsRelative m.name := by
    intro m hm
    obtain ⟨entry, hentry, rfl⟩ := List.mem_map.1 hm
    exact FilePath.head_ne_slash (FilePath.isPlain_of_isIdentifier (hrun.isIdentifier_name hentry))
  exact Layout.nodup_servicePaths options.sourceLabel (source.output service documents models)
    hstems (GeneratesAlone.of_run hrun).names hdocuments hmodels

def joinedNames : Api where
  title := "Pets"
  security := []
  paths := [("/first", ⟨[("GET", ⟨some "all", ["cats_dogs"], [], none⟩)], []⟩),
    ("/second", ⟨[("GET", ⟨some "dogs_all", ["cats"], [], none⟩)], []⟩)]
  components := ⟨[], [], []⟩

attribute [local instance] Spelling.plain

theorem joinedNames_nodup_paths : ∃ source, joinedNames.source = .ok source ∧
    Succeeds (generate source documentsOnly) fun result => (result.1.map (·.path)).Nodup := by
  have hsome : joinedNames.source.toOption.isSome = true := by decide +kernel
  obtain ⟨source, hsource⟩ := Option.isSome_iff_exists.1 hsome
  have hok : joinedNames.source = .ok source := ok_of_toOption hsource
  exact ⟨source, hok, Api.nodup_paths hok documentsOnly⟩

end OpenApi

end RequestDocs
