import RequestDocs.Command.Listing
import RequestDocs.Proofs.DistinctPaths
import RequestDocs.Proofs.DocumentFiles
/-!
# Rows and documents

The listing of a description agrees with what is generated from it: it has a row for each operation,
by name, and the document of an operation is written where its row says, apart from a number where
an earlier document has its name.
-/

namespace RequestDocs

/-- The rows are those listed, by name, and rows of one name keep their order. -/
structure SortedByName (listed rows : List OperationRow) : Prop where
  perm : rows.Perm listed
  sorted : rows.Pairwise fun row row' => row.name ≤ row'.name
  stable : ∀ name, rows.filter (·.name = name) = listed.filter (·.name = name)

theorem mergeSort_sortedByName (listed : List OperationRow) :
    SortedByName listed (listed.mergeSort fun a b => decide (a.name ≤ b.name)) := by
  have htrans (a b c : OperationRow) (hab : decide (a.name ≤ b.name) = true)
      (hbc : decide (b.name ≤ c.name) = true) : decide (a.name ≤ c.name) = true := by
    simp only [decide_eq_true_eq] at hab hbc ⊢
    exact String.le_trans hab hbc
  have htotal (a b : OperationRow) : (decide (a.name ≤ b.name) || decide (b.name ≤ a.name)) = true := by
    simpa using String.le_total a.name b.name
  have hperm := List.mergeSort_perm listed fun a b => decide (a.name ≤ b.name)
  refine ⟨hperm, ?_, fun name => ?_⟩
  · simpa using List.pairwise_mergeSort htrans htotal listed
  · -- Rows of one name are in order already, so that sorting leaves them in their places.
    have hordered : (listed.filter (·.name = name)).Pairwise fun a b =>
        decide (a.name ≤ b.name) = true := by
      rw [List.pairwise_iff_forall_sublist]
      intro a b hsub
      have hname (row : OperationRow) (hrow : row ∈ [a, b]) : row.name = name := by
        simpa using (List.mem_filter.1 (hsub.subset hrow)).2
      simp [hname a (by simp), hname b (by simp)]
    have hkept := (List.sublist_mergeSort htrans htotal hordered List.filter_sublist).filter
      fun row => decide (row.name = name)
    rw [List.filter_filter] at hkept
    simp only [Bool.and_self] at hkept
    exact (hkept.eq_of_length (hperm.filter _).length_eq.symm).symm

/-- The files of operations, in order, beside documents with the stems `used`. The file of an
operation is at the document of its row; where the stem of the operation is used, it is at that path
with the smallest free number from 2 on before the extension. -/
inductive Service.WritesFiles [Spelling]
    (service : Service) (g : TypeGraph) (options : AssemblyOptions) :
    List String → List Operation → List RenderedFile → Prop
  | nil (used : List String) : WritesFiles service g options used [] []
  | asListed {used : List String} {op : Operation} {ops : List Operation} {file : RenderedFile}
      {files : List RenderedFile} (hfree : op.documentStem ∉ used)
      (hpath : file.path = (operationRow service op).document)
      (htext : (op.inService service).HasText g options file.contents)
      (hrest : WritesFiles service g options (op.documentStem :: used) ops files) :
      WritesFiles service g options used (op :: ops) (file :: files)
  | numbered {used : List String} {op : Operation} {ops : List Operation} {file : RenderedFile}
      {files : List RenderedFile} (n : Nat) (front : String) (hused : op.documentStem ∈ used)
      (htwo : 2 ≤ n) (hfree : op.documentStem ++ toString n ∉ used)
      (hsmallest : ∀ m, 2 ≤ m → m < n → op.documentStem ++ toString m ∈ used)
      (hrow : (operationRow service op).document = front ++ ".http")
      (hpath : file.path = front ++ toString n ++ ".http")
      (htext : (op.inService service).HasText g options file.contents)
      (hrest : WritesFiles service g options ((op.documentStem ++ toString n) :: used) ops files) :
      WritesFiles service g options used (op :: ops) (file :: files)

theorem Layout.documentAddress_eq {service stem : String} (hservice : IsIdentifier service)
    (hne : service ≠ "") (hstem : FilePath.IsRelative stem) :
    documentAddress service stem = service ++ "/" ++ stem ++ ".http" := by
  have hfolder : FilePath.ofComponents [service] = service := by
    simp [FilePath.ofComponents, FilePath.push]
  have hfile : FilePath.IsRelative (stem ++ "." ++ Document.extension) := by
    rw [String.append_assoc]
    apply hstem.append
    unfold FilePath.IsRelative
    decide
  have hlast := FilePath.getLast_ne_slash (FilePath.isPlain_of_isIdentifier hservice)
  rw [documentAddress, hfolder, FilePath.push_eq hne hlast hfile]
  simp only [String.append_assoc]
  rfl

theorem GenerateOptions.Writes.files [Spelling]
    {options : GenerateOptions} {g : TypeGraph} {service : Service}
    (hservice : IsIdentifier service.name) (hne : service.name ≠ "") {used : List String}
    {ops : List Operation} {documents : List DocumentFile}
    (h : options.Writes g service used ops documents) (hall : ∀ op, options.Selects op)
    (hstems : ∀ op ∈ ops, ∀ suffix, FilePath.IsRelative (op.documentStem ++ suffix)) :
    service.WritesFiles g options.assembly used ops
      (documents.map (Layout.renderedDocument service.name)) := by
  induction h with
  | nil used => exact .nil used
  | @skip _ op _ _ hselects => exact absurd (hall op) hselects
  | @write used op ops d documents hselects htext hstem _ ih =>
    obtain ⟨hrelative, hrest⟩ := List.forall_mem_cons.1 hstems
    have hfiles := ih hrest
    have haddress (suffix : String) :
        Layout.documentAddress service.name (op.documentStem ++ suffix) =
          service.name ++ "/" ++ op.documentStem ++ suffix ++ ".http" := by
      rw [Layout.documentAddress_eq hservice hne (hrelative suffix)]
      simp only [String.append_assoc]
    have hrow : (operationRow service op).document =
        service.name ++ "/" ++ op.documentStem ++ ".http" := by
      simp only [operationRow, Document.extension, String.append_assoc]
      rfl
    have hpath : (Layout.renderedDocument service.name d).path =
        Layout.documentAddress service.name d.stem := rfl
    generalize hname : d.stem = stem at hstem hfiles hpath
    cases hstem with
    | unchanged hfree =>
      have hlisted : (Layout.renderedDocument service.name d).path =
          (operationRow service op).document := by
        rw [hpath, hrow]
        simpa using haddress ""
      exact .asListed hfree hlisted htext hfiles
    | numbered n hused htwo hfree hsmallest =>
      exact .numbered n _ hused htwo hfree hsmallest hrow (hpath.trans (haddress _)) htext hfiles

namespace OpenApi

/-- The listing of a description agrees with what is generated from it: there is a request for each
operation and a row for each request, and the files of the requests come first, where the rows say. -/
structure Api.ListingAgrees [Spelling] (api : Api) (source : Source) (options : GenerateOptions)
    (service : Service) : Prop where
  single : source.services = [service]
  requests : List.Forall₂ Describes api.operations service.operations
  rows : SortedByName (service.operations.map (operationRow service)) (operationRows source.services)
  files : Succeeds (generate source options) fun result => ∃ files models,
    service.WritesFiles source.types options.assembly [] service.operations files ∧
      result.1 = files ++ models

/-- Without filters, the documents of a description are written where its listing says. -/
theorem Api.listing_agrees [Spelling]
    {api : Api} {source : Source} (hsource : api.source = .ok source)
    (options : GenerateOptions) (honly : options.only = none) (hexclude : options.exclude = none) :
    ∃ service, api.ListingAgrees source options service := by
  obtain ⟨service, hservices, hgenerate⟩ := Api.writes_of_source hsource options
  have hservice : service ∈ source.services := by simp [hservices]
  obtain ⟨hname, hrequests⟩ := api.describes_of_source hsource service hservice
  obtain ⟨-, hnames⟩ := api.service_of_source hsource service hservice
  have hidentifier : IsIdentifier service.name := hname ▸ serviceName_isIdentifier api.title
  have hne : service.name ≠ "" := hname ▸ serviceName_ne_empty api.title
  have hall (op : Operation) : options.Selects op := by
    simp [GenerateOptions.Selects, GenerateOptions.exclusionReason, honly, hexclude]
  refine ⟨service, hservices, hrequests, ?_, ?_⟩
  · have hlisted := mergeSort_sortedByName (service.operations.map (operationRow service))
    simpa [operationRows, hservices] using hlisted
  · apply hgenerate.mono
    rintro result ⟨documents, models, hwrites, hfiles⟩
    have hstems (op : Operation) (hop : op ∈ service.operations) (suffix : String) :
        FilePath.IsRelative (op.documentStem ++ suffix) :=
      (hnames op hop).isRelative_documentStem suffix
    exact ⟨_, models, hwrites.files hidentifier hne hall hstems, hfiles⟩

attribute [local instance] Spelling.plain

theorem joinedNames_listing_agrees : ∃ source, joinedNames.source = .ok source ∧
    documentsOnly.only = none ∧ documentsOnly.exclude = none ∧
      ∃ service, joinedNames.ListingAgrees source documentsOnly service := by
  have hsome : joinedNames.source.toOption.isSome = true := by decide +kernel
  obtain ⟨source, hsource⟩ := Option.isSome_iff_exists.1 hsome
  have hok : joinedNames.source = .ok source := ok_of_toOption hsource
  exact ⟨source, hok, rfl, rfl, Api.listing_agrees hok documentsOnly rfl rfl⟩

end OpenApi

end RequestDocs
