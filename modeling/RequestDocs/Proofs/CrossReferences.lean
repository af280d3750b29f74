import RequestDocs.Proofs.Composition
import RequestDocs.Proofs.SampleLines
/-!
# Cross-references

How the files of models refer to one another. The file of a model imports the models of the records
nested in its own record, and all that it imports stand beside it.
-/

namespace RequestDocs

open Relation

namespace Layout

def importOf (name : String) : String := "// import " ++ name ++ " from \"./" ++ name ++ ".jsonc\""

theorem siblingLine_eq {name : String} (h : IsIdentifier name) : siblingLine name = importOf name := by
  -- No file of a model begins like a step up.
  have hbelow : TreePath.parentSegment.toList.isPrefixOf (name ++ "." ++ modelExtension).toList = false := by
    rw [String.append_assoc, String.toList_append]
    cases hname : name.toList with
    | nil => decide
    | cons c cs =>
      have hc : ('.' == c) = false := by
        rw [beq_eq_false_iff_ne]
        rintro rfl
        exact absurd (h '.' (by simp [hname])) (by decide)
      simp [TreePath.parentSegment, List.isPrefixOf, hc]
  rw [siblingLine, importText, ModuleTree.specifierText, String.intercalate_singleton]
  simp only [hbelow]
  apply String.toList_inj.1
  simp [ImportBinder.text, importOf, modelExtension]

theorem importOf_inj {name name' : String} (h : importOf name = importOf name') : name = name' := by
  simp only [importOf, String.append_assoc, String.append_right_inj] at h
  have hchars : name.toList ++ (" from \"./" ++ (name ++ ".jsonc\"")).toList =
      name'.toList ++ (" from \"./" ++ (name' ++ ".jsonc\"")).toList := by
    simpa using congrArg String.toList h
  have hlength := congrArg List.length hchars
  simp only [List.length_append, String.toList_append] at hlength
  exact String.toList_inj.1 (List.append_inj_left hchars (by omega))

theorem head?_importOf (name : String) : (importOf name).toList.head? = some '/' := by
  simp [importOf]

theorem importText_named_ne {name : String} (h : IsIdentifier name) (names : List String)
    (source : String) : importText (.named names) source ≠ importOf name := by
  intro heq
  simp only [importText, ImportBinder.text, importOf, String.append_assoc,
    String.append_right_inj] at heq
  have hhead := congrArg (fun s => s.toList.head?) heq
  cases hname : name.toList with
  | nil => simp [hname] at hhead
  | cons c cs =>
    have hc : c.isAlphanum := h c (by simp [hname])
    simp only [String.toList_append, hname, List.cons_append, List.head?_cons] at hhead
    cases hhead
    cases hc

theorem importOf_not_mem_pointerLine {name : String} (h : IsIdentifier name) (label : String)
    (service : ServiceOutput) (m : Model) : importOf name ∉ pointerLine label service m := by
  intro hmem
  obtain ⟨pointer, -, heq⟩ := Option.map_eq_some_iff.1 (Option.mem_toList.1 hmem)
  exact importText_named_ne h _ _ heq

theorem oneLine_importOf {name : String} (h : OneLine name) : OneLine (importOf name) :=
  .append (.append (.append (.append (by decide) h) (by decide)) h) (by decide)

end Layout

open Layout

/-- The lines of the file of a model refer to the models of the records nested in its record. Imports
of these stand in front, in the order of the records; no model is imported twice, and none besides
these. -/
structure Model.CrossReferences (g : TypeGraph) (models : List (TypeId × Model)) (lines : List String)
    (entry : TypeId × Model) (targets : List (TypeId × Model)) : Prop where
  nested : g.nestedRecords entry.1 = .ok (targets.map Prod.fst)
  among : targets ⊆ models
  opening : ∃ pointer, lines = targets.map (importOf ·.2.name) ++ pointer ++ entry.2.lines
  once : ∀ target ∈ targets, lines.count (importOf target.2.name) = 1
  only : ∀ other ∈ models, importOf other.2.name ∈ lines → other ∈ targets
  notSelf : importOf entry.2.name ∉ lines

private theorem exists_map_eq {α β : Type} {f : α → β} {xs : List α} (ys : List β)
    (h : ∀ y ∈ ys, ∃ x ∈ xs, f x = y) : ∃ zs ⊆ xs, zs.map f = ys := by
  induction ys with
  | nil => exact ⟨[], by simp, rfl⟩
  | cons y ys ih =>
    obtain ⟨⟨x, hx, rfl⟩, hys⟩ := List.forall_mem_cons.1 h
    obtain ⟨zs, hzs, rfl⟩ := ih hys
    exact ⟨x :: zs, List.cons_subset.2 ⟨hx, hzs⟩, rfl⟩

namespace ServiceRun

variable {source : Source} {options : GenerateOptions} {service : Service} {stats : Stats}
  {documents : List DocumentFile} {models : List (TypeId × Model)} {t : RunState}
  {entry : TypeId × Model}

theorem exists_targets [Spelling] (h : ServiceRun source options service stats documents models t)
    (hmodels : options.emitModels = true) (hentry : entry ∈ models) :
    ∃ targets ⊆ models, source.types.nestedRecords entry.1 = .ok (targets.map Prod.fst) ∧
      entry.2.dependencies = targets.map (·.2.name) := by
  obtain ⟨-, nested, hnested, hdependencies⟩ := h.named entry hentry
  obtain ⟨root, hroot, hpath⟩ := (h.reached hmodels entry.1).1 (List.mem_map_of_mem hentry)
  have hdrained : ∀ r ∈ nested, ∃ target ∈ models, target.1 = r := by
    intro r hr
    have hreached : ReflTransGen source.types.Nests root r := hpath.tail ⟨nested, hnested, hr⟩
    exact List.mem_map.1 ((h.reached hmodels r).2 ⟨root, hroot, hreached⟩)
  obtain ⟨targets, hsub, rfl⟩ := exists_map_eq nested hdrained
  refine ⟨targets, hsub, hnested, ?_⟩
  have hnames : List.Forall₂ (fun r name => t.registry.nameOf? r = some name) (targets.map Prod.fst)
      (targets.map (·.2.name)) := by
    rw [List.forall₂_map_left_iff, List.forall₂_map_right_iff, List.forall₂_same]
    exact fun target htarget => (h.named target (hsub htarget)).1
  have hunique : Relator.RightUnique fun r name => t.registry.nameOf? r = some name :=
    fun _ _ _ hname hname' => Option.some.inj (hname.symm.trans hname')
  exact List.right_unique_forall₂' hunique hdependencies hnames

private theorem siblingLines_eq [Spelling]
    (h : ServiceRun source options service stats documents models t)
    (hentry : entry ∈ models) {targets : List (TypeId × Model)} (hsub : targets ⊆ models)
    (hself : entry ∉ targets) (hdependencies : entry.2.dependencies = targets.map (·.2.name)) :
    (siblings (source.output service documents models) entry.2).map siblingLine =
      targets.map (importOf ·.2.name) := by
  have hall : siblings (source.output service documents models) entry.2 = targets.map (·.2.name) := by
    rw [siblings, hdependencies, List.filter_eq_self]
    intro name hname
    obtain ⟨target, htarget, rfl⟩ := List.mem_map.1 hname
    have hmodel : target.2.name ∈ (source.output service documents models).modelNames :=
      List.mem_map_of_mem (List.mem_map_of_mem (hsub htarget))
    have hname : target.2.name ≠ entry.2.name := by
      intro heq
      rw [List.inj_on_of_nodup_map h.nodup_names (hsub htarget) hentry heq] at htarget
      exact hself htarget
    exact decide_eq_true ⟨hmodel, hname⟩
  rw [hall, List.map_map]
  exact List.map_congr_left fun target htarget => siblingLine_eq (h.isIdentifier_name (hsub htarget))

theorem lines_spec [Spelling] (h : ServiceRun source options service stats documents models t)
    (hclosed : source.types.Closed) (hmodels : options.emitModels = true) (hentry : entry ∈ models) :
    entry.2.lines ≠ [] ∧ ∀ line ∈ entry.2.lines, line.toList.head? ≠ some '/' := by
  obtain ⟨s, u, -, hrun⟩ := h.sampled entry hentry
  have hrecord := h.isRecord hclosed hmodels hentry
  exact (Synthesis.synthesize_record hclosed hrecord _ _ s).of_ok hrun

private theorem importOf_inj_on [Spelling]
    (h : ServiceRun source options service stats documents models t)
    {other other' : TypeId × Model} (hother : other ∈ models) (hother' : other' ∈ models)
    (heq : importOf other.2.name = importOf other'.2.name) : other = other' :=
  List.inj_on_of_nodup_map h.nodup_names hother hother' (importOf_inj heq)

private theorem not_mem_rest [Spelling]
    (h : ServiceRun source options service stats documents models t)
    (hclosed : source.types.Closed) (hmodels : options.emitModels = true) (hentry : entry ∈ models)
    (label : String) : ∀ other ∈ models,
    importOf other.2.name ∉ pointerLine label (source.output service documents models) entry.2 ∧
      importOf other.2.name ∉ entry.2.lines := by
  intro other hother
  refine ⟨importOf_not_mem_pointerLine (h.isIdentifier_name hother) _ _ _, fun hline => ?_⟩
  exact (h.lines_spec hclosed hmodels hentry).2 _ hline (head?_importOf _)

theorem crossReferences [Spelling] (h : ServiceRun source options service stats documents models t)
    (hclosed : source.types.Closed) (hmodels : options.emitModels = true) (hentry : entry ∈ models)
    (label : String) :
    ∃ targets, Model.CrossReferences source.types models
      (modelText label (source.output service documents models) entry.2) entry targets := by
  obtain ⟨targets, hsub, hnested, hdependencies⟩ := h.exists_targets hmodels hentry
  obtain ⟨nested, hnested', hnodup, fields, -, hmem⟩ :=
    hclosed.nestedRecords_ok (h.isRecord hclosed hmodels hentry).has
  cases hnested.symm.trans hnested'
  have hself : entry ∉ targets := fun hself => ((hmem entry.1).1 (List.mem_map_of_mem hself)).1 rfl
  have himports := h.siblingLines_eq hentry hsub hself hdependencies
  have hrest := h.not_mem_rest hclosed hmodels hentry label
  have honly : ∀ other ∈ models,
      importOf other.2.name ∈ modelText label (source.output service documents models) entry.2 →
        other ∈ targets := by
    intro other hother hline
    rw [modelText, himports, List.mem_append, List.mem_append] at hline
    rcases hline with (hline | hline) | hline
    · obtain ⟨target, htarget, heq⟩ := List.mem_map.1 hline
      rwa [h.importOf_inj_on hother (hsub htarget) heq.symm]
    · exact absurd hline (hrest other hother).1
    · exact absurd hline (hrest other hother).2
  refine ⟨targets, hnested, hsub, ⟨_, congrArg (· ++ _ ++ _) himports⟩, ?_, honly, ?_⟩
  · intro target htarget
    have hdistinct : (targets.map (importOf ·.2.name)).Nodup := by
      apply List.Nodup.map_on _ (List.Nodup.of_map Prod.fst hnodup)
      exact fun other hother other' hother' => h.importOf_inj_on (hsub hother) (hsub hother')
    obtain ⟨hpointer, hlines⟩ := hrest target (hsub htarget)
    rw [modelText, himports, List.count_append, List.count_append, List.count_eq_zero.2 hpointer,
      List.count_eq_zero.2 hlines, List.count_eq_one_of_mem hdistinct (List.mem_map_of_mem htarget)]
  · exact fun hline => hself (honly entry hentry hline)

end ServiceRun

/-- What a source puts on lines as it is has no line breaks: what the samples of its records show,
its pointers, and the label of its document. -/
structure Source.Legible [Spelling] (source : Source) (options : GenerateOptions) : Prop where
  records : ∀ r, source.types.IsRecord r → source.types.Printable r
  pointers : ∀ pointer ∈ source.pointers, OneLine pointer.2
  label : OneLine options.sourceLabel

namespace ServiceRun

variable {source : Source} {options : GenerateOptions} {service : Service} {stats : Stats}
  {documents : List DocumentFile} {models : List (TypeId × Model)} {t : RunState}
  {entry : TypeId × Model}

private theorem oneLine_pointerLine [Spelling]
    (h : ServiceRun source options service stats documents models t)
    (hlegible : source.Legible options) (hentry : entry ∈ models) :
    ∀ line ∈ pointerLine options.sourceLabel (source.output service documents models) entry.2,
      OneLine line := by
  intro line hline
  obtain ⟨pointer, hlookup, rfl⟩ := Option.map_eq_some_iff.1 (Option.mem_toList.1 hline)
  have hpointer : OneLine pointer := by
    obtain ⟨⟨id, m⟩, -, hfound⟩ := List.mem_filterMap.1 (mem_of_lookup hlookup)
    obtain ⟨pointer', hpointer', heq⟩ := Option.map_eq_some_iff.1 hfound
    obtain rfl : pointer' = pointer := congrArg Prod.snd heq
    exact hlegible.pointers _ (mem_of_lookup hpointer')
  have hname : OneLine entry.2.name := (h.isIdentifier_name hentry).oneLine
  have hbinder : OneLine (ImportBinder.text (.named [entry.2.name])) := by
    rw [ImportBinder.text, String.intercalate_singleton]
    exact .append (.append (by decide) hname) (by decide)
  have hsource := hlegible.label.append hpointer
  exact .append (.append (.append (.append (by decide) hbinder) (by decide)) hsource) (by decide)

theorem split_contents [Spelling] (h : ServiceRun source options service stats documents models t)
    (hclosed : source.types.Closed) (hmodels : options.emitModels = true)
    (hlegible : source.Legible options) (hentry : entry ∈ models) :
    Text.split '\n'
        (renderedModel options.sourceLabel (source.output service documents models) entry.2).contents =
      modelText options.sourceLabel (source.output service documents models) entry.2 := by
  apply Text.split_intercalate
  · exact fun hnil => (h.lines_spec hclosed hmodels hentry).1 (List.append_eq_nil_iff.1 hnil).2
  rw [modelText]
  refine List.forall_mem_append.2 ⟨List.forall_mem_append.2 ⟨?_, ?_⟩, ?_⟩
  · intro line hline
    obtain ⟨name, hsibling, rfl⟩ := List.mem_map.1 hline
    have hname := (of_decide_eq_true (List.mem_filter.1 hsibling).2).1
    obtain ⟨m, hm, rfl⟩ := List.mem_map.1 hname
    obtain ⟨other, hother, rfl⟩ := List.mem_map.1 hm
    have hidentifier := h.isIdentifier_name hother
    rw [siblingLine_eq hidentifier]
    exact oneLine_importOf hidentifier.oneLine
  · exact h.oneLine_pointerLine hlegible hentry
  · obtain ⟨s, u, hkeeps, hrun⟩ := h.sampled entry hentry
    have hrecord := h.isRecord hclosed hmodels hentry
    have hempty : NameRegistry.empty.Plain := by
      simp [NameRegistry.Plain, NameRegistry.empty]
    have hlines := Synthesis.synthesize_oneLine hclosed hrecord.has (hlegible.records _ hrecord)
      options.assembly.maxDepth entry.2.name (hkeeps.plain hempty)
    exact hlines.of_ok hrun

end ServiceRun

/-- The file of a model among the files of its service, line by line. -/
def Model.HasFile (m : Model) (service : String) (files : List RenderedFile) (lines : List String) :
    Prop :=
  ∃ file ∈ files, file.path = modelAddress service m.name ∧ Text.split '\n' file.contents = lines

def Service.RefersWithin [Spelling]
    (source : Source) (options : GenerateOptions) (service : Service)
    (files : List RenderedFile) : Prop :=
  ∃ models, GeneratesModels source options service .zero models ∧
    ∀ entry ∈ models, ∃ lines targets, entry.2.HasFile service.name files lines ∧
      Model.CrossReferences source.types models lines entry targets ∧
      ∀ target ∈ targets, ∃ front, target.2.HasFile service.name files (front ++ target.2.lines)

theorem ServiceRun.refersWithin [Spelling]
    {source : Source} {options : GenerateOptions} {service : Service}
    {documents : List DocumentFile} {models : List (TypeId × Model)} {t : RunState}
    (h : ServiceRun source options service .zero documents models t) (hclosed : source.types.Closed)
    (hmodels : options.emitModels = true) (hlegible : source.Legible options) :
    service.RefersWithin source options
      (serviceFiles options.sourceLabel (source.output service documents models)) := by
  obtain ⟨s, hdocuments, hdrain⟩ := h.drained hmodels
  have hfile : ∀ entry ∈ models, entry.2.HasFile service.name
      (serviceFiles options.sourceLabel (source.output service documents models))
      (modelText options.sourceLabel (source.output service documents models) entry.2) := by
    intro entry hentry
    refine ⟨_, ?_, rfl, h.split_contents hclosed hmodels hlegible hentry⟩
    exact List.mem_append_right _ (List.mem_map_of_mem (List.mem_map_of_mem hentry))
  refine ⟨models, ⟨⟨documents, s, t, hdocuments, hdrain⟩, _, t, h.generated, rfl⟩, ?_⟩
  intro entry hentry
  obtain ⟨targets, hrefers⟩ := h.crossReferences hclosed hmodels hentry options.sourceLabel
  refine ⟨_, targets, hfile entry hentry, hrefers, fun target htarget => ?_⟩
  exact ⟨_, hfile target (hrefers.among htarget)⟩

/-- In a legible source, the files of models refer to the models of nested records, each once, and the
files of these stand beside them. -/
theorem Source.InRange.models_refer_once [Spelling] {source : Source} (h : source.InRange)
    {options : GenerateOptions} (hmodels : options.emitModels = true)
    (hlegible : source.Legible options) :
    ∃ parts : List (List RenderedFile),
      (∃ stats, generate source options = .ok (parts.flatten, stats)) ∧
      List.Forall₂ (fun service files => service.RefersWithin source options files) source.services
        parts := by
  have hruns : ∀ service ∈ source.services, ∃ part, GeneratesAlone source options service part ∧
      service.RefersWithin source options (serviceFiles options.sourceLabel part.1) := by
    intro service hservice
    obtain ⟨documents, models, t, hrun⟩ := h.runs options hservice .zero
    exact ⟨_, .of_run hrun, hrun.refersWithin h.closed hmodels hlegible⟩
  obtain ⟨parts, hparts⟩ := exists_forall₂ source.services hruns
  refine ⟨parts.map fun part => serviceFiles options.sourceLabel part.1, ?_, ?_⟩
  · rw [generate_eq (hparts.imp fun _ _ => And.left), List.flatMap_map, List.flatMap_def]
    exact ⟨_, rfl⟩
  · rw [List.forall₂_map_right_iff]
    exact hparts.imp fun _ _ => And.right

private theorem petGraph_legible [Spelling] (id : TypeId) (hid : petGraph.Has id) :
    petGraph.Legible id := by
  have howner : petGraph.IsRecord ⟨0⟩ := ⟨_, rfl, rfl⟩
  have hpet : petGraph.IsRecord ⟨2⟩ := ⟨_, rfl, rfl⟩
  have hkey (name : String) (type : TypeId) (hname : name.toList.all Sample.isUnescaped) :
      ∀ fields, Except.ok [Field.mk name type] = (Except.ok fields : Except Fault (List Field)) →
        ∀ field ∈ fields, Naming.words field.name = [] → Json.StringBody field.name.toList := by
    intro fields hfields field hmem _
    cases hfields
    rw [List.mem_singleton.1 hmem]
    exact Sample.stringBody_of_unescaped hname
  match id, hid with
  | ⟨0⟩, _ =>
    exact ⟨nofun, nofun, fun _ hpasses => absurd hpasses howner.not_passes, hkey "pets" ⟨1⟩ (by decide)⟩
  | ⟨1⟩, _ =>
    refine ⟨nofun, nofun, ?_, ?_⟩
    · rintro id' ⟨node, hnode, -, hmem⟩ hother
      cases hnode
      rw [List.mem_singleton.1 hmem] at hother
      exact absurd hpet hother
    · intro fields hfields field hmem
      cases hfields
      cases hmem
  | ⟨2⟩, _ =>
    exact ⟨nofun, nofun, fun _ hpasses => absurd hpasses hpet.not_passes, hkey "owner" ⟨0⟩ (by decide)⟩

attribute [local instance] Spelling.plain

theorem petSource_refers_once :
    petSource.InRange ∧ petModels.emitModels = true ∧ petSource.Legible petModels ∧
    ∃ parts : List (List RenderedFile),
      (∃ stats, generate petSource petModels = .ok (parts.flatten, stats)) ∧
      List.Forall₂ (fun service files => service.RefersWithin petSource petModels files)
        petSource.services parts := by
  have hlegible : petSource.Legible petModels := by
    refine ⟨fun r hr => petGraph_closed.printable petGraph_legible hr.has, ?_, by decide⟩
    simp [petSource]
  exact ⟨petSource_inRange, rfl, hlegible, petSource_inRange.models_refer_once rfl hlegible⟩

/-- An owner whose kind is a text of two lines, the second of which reads like an import. -/
def twoLineGraph : TypeGraph := .ofList [
  .record (some "Owner") none [⟨"kind", ⟨1⟩⟩],
  .union none [⟨2⟩],
  .literal (.string "a\n// import Owner from \"./Owner.jsonc\"")]

def twoLineSource : Source := ⟨[petService], twoLineGraph, []⟩

/-- The note on the kind goes on to a second line, by which the model imports itself. -/
theorem twoLineSource_refers_to_itself :
    twoLineSource.InRange ∧ petModels.emitModels = true ∧
    ∃ files stats, generate twoLineSource petModels = .ok (files, stats) ∧
      ¬petService.RefersWithin twoLineSource petModels files := by
  have hrange : twoLineSource.InRange := by decide
  have hfiles : (generate twoLineSource petModels).toOption.map (fun result =>
      result.1.all fun file => file.path != modelAddress "Pets" "Owner" ||
        (Text.split '\n' file.contents).contains (importOf "Owner")) = some true := by
    decide +kernel
  have hnames : (generateServices twoLineSource petModels .zero [petService]).toOption.map
      (fun result => result.1.map ServiceOutput.modelNames) = some [["Owner"]] := by
    decide +kernel
  obtain ⟨⟨files, stats⟩, hgenerate, hall⟩ := Option.map_eq_some_iff.1 hfiles
  refine ⟨hrange, rfl, files, stats, ok_of_toOption hgenerate, ?_⟩
  rintro ⟨models, hgenerates, hrefers⟩
  obtain ⟨output, t, hrun, hmodels⟩ := hgenerates.output
  have hservices : generateServices twoLineSource petModels .zero [petService] =
      .ok ([output], t.stats) := by
    rw [generateServices, hrun]
    rfl
  have hname : output.modelNames = ["Owner"] := by
    simpa [hservices, Except.toOption] using hnames
  rw [ServiceOutput.modelNames, hmodels] at hname
  obtain ⟨m, hm, howner⟩ := List.mem_map.1 (hname ▸ List.mem_singleton_self "Owner")
  obtain ⟨entry, hentry, rfl⟩ := List.mem_map.1 hm
  obtain ⟨lines, targets, ⟨file, hfile, hpath, rfl⟩, hlines, -⟩ := hrefers entry hentry
  have hself := hlines.notSelf
  rw [howner] at hpath hself
  have himports := List.all_eq_true.1 hall file hfile
  have hservice : petService.name = "Pets" := rfl
  exact hself (by simpa [hpath, hservice] using himports)

end RequestDocs
