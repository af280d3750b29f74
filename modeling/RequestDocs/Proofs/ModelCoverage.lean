import RequestDocs.Proofs.Histories
import RequestDocs.Proofs.Services
/-!
# Coverage by models

Which records of a body are written as models. A synthesis announces the records directly in the
place of the body, a drain goes on to all that are nested in these; what is missed are records that
stand only behind a second array or union.
-/

namespace RequestDocs

open Relation

variable {g : TypeGraph} {id root r : TypeId}

namespace TypeGraph

/-- The other is an element or variant of the id, or the type of a field. -/
def Leads (g : TypeGraph) (id id' : TypeId) : Prop :=
  g.Passes id id' ∨
    (g.IsRecord id ∧ ∃ fields, g.allFields id = .ok fields ∧ ∃ field ∈ fields, field.type = id')

def Contains (g : TypeGraph) (root r : TypeId) : Prop := ReflTransGen g.Leads root r ∧ g.IsRecord r

theorem Holds.contains (h : g.Holds root r) : g.Contains root r :=
  ⟨ReflTransGen.mono (fun _ _ hpasses => Or.inl hpasses) _ _ h.1, h.2⟩

private theorem Closed.leads_of_nests (hg : g.Closed) (hid : g.IsRecord id) (h : g.Nests id r) :
    ReflTransGen g.Leads id r := by
  obtain ⟨fields, hfields, -⟩ := hg.allFields_ok hid.has
  obtain ⟨-, field, hfield, hholds⟩ := (hg.nests_iff hfields hid.has).1 h
  exact .head (.inr ⟨hid, fields, hfields, field, hfield, rfl⟩) hholds.contains.1

theorem Closed.contains_iff (hg : g.Closed) :
    g.Contains root r ↔ ∃ r', g.Holds root r' ∧ ReflTransGen g.Nests r' r := by
  constructor
  · rintro ⟨hpath, hr⟩
    -- From the end of the path: a step through a field starts over with the record of the field.
    induction hpath using ReflTransGen.head_induction_on with
    | refl => exact ⟨r, ⟨.refl, hr⟩, .refl⟩
    | @head id _ hleads _ ih =>
      obtain ⟨r', hholds, hnested⟩ := ih
      rcases hleads with hpasses | ⟨hid, fields, hfields, field, hfield, rfl⟩
      · exact ⟨r', hholds.head hpasses, hnested⟩
      · refine ⟨id, ⟨.refl, hid⟩, ?_⟩
        by_cases heq : r' = id
        · exact heq ▸ hnested
        · exact hnested.head ((hg.nests_iff hfields hid.has).2 ⟨heq, field, hfield, hholds⟩)
  · rintro ⟨r', hholds, hnested⟩
    have hparts : g.IsRecord r ∧ ReflTransGen g.Leads r' r := by
      induction hnested with
      | refl => exact ⟨hholds.2, .refl⟩
      | tail hprefix hnests ih =>
        exact ⟨hg.isRecord_of_nests (.single hnests) ih.1, ih.2.trans (hg.leads_of_nests ih.1 hnests)⟩
    exact ⟨hholds.contains.1.trans hparts.2, hparts.1⟩

end TypeGraph

/-- The type is the sampled body of an operation with a document. -/
def GenerateOptions.SamplesBody (options : GenerateOptions) (service : Service) (root : TypeId) :
    Prop :=
  ∃ op ∈ service.operations, options.Selects op ∧ op.sampledType? = some root

theorem GenerateOptions.samples_iff (options : GenerateOptions) (service : Service) :
    options.Samples g service.operations r ↔
      ∃ root, options.SamplesBody service root ∧ Synthesis.Direct g root r := by
  constructor
  · rintro ⟨op, hop, hselects, root, hroot, hdirect⟩
    exact ⟨root, ⟨op, hop, hselects, hroot⟩, hdirect⟩
  · rintro ⟨root, ⟨op, hop, hselects, hroot⟩, hdirect⟩
    exact ⟨op, hop, hselects, root, hroot, hdirect⟩

/-- The models that a service is generated with, after its documents. -/
structure GeneratesModels [Spelling]
    (source : Source) (options : GenerateOptions) (service : Service)
    (stats : Stats) (models : List (TypeId × Model)) : Prop where
  drained : ∃ documents s t,
    generateDocuments source.types options service [] service.operations
      (.start stats.recordService) = .ok documents s ∧
    Run.drain source.types options.assembly.maxDepth s = .ok models t
  output : ∃ output t, generateService source options service (.start stats) = .ok output t ∧
    output.models = models.map Prod.snd

/-- With models, what is drained after the documents of a service are, each once, the records nested
in those directly in the place of its bodies. -/
theorem Source.InRange.generatesModels [Spelling] {source : Source} (h : source.InRange)
    {options : GenerateOptions} (hmodels : options.emitModels = true) {service : Service}
    (hservice : service ∈ source.services) (stats : Stats) :
    ∃ models, GeneratesModels source options service stats models ∧
      (models.map Prod.fst).Nodup ∧ ∀ id, id ∈ models.map Prod.fst ↔
        ∃ r, options.Samples source.types service.operations r ∧
          ReflTransGen source.types.Nests r id := by
  obtain ⟨documents, models, t, hrun⟩ := h.runs options hservice stats
  obtain ⟨s, hdocuments, hdrain⟩ := hrun.drained hmodels
  exact ⟨models, ⟨⟨documents, s, t, hdocuments, hdrain⟩, _, t, hrun.generated, rfl⟩, hrun.nodup,
    hrun.reached hmodels⟩

/-- All records of the bodies of a service are written, each as one model, exactly when those that
the bodies stand for are nested in the ones directly in the place of a body. -/
theorem Source.InRange.models_cover_iff [Spelling] {source : Source} (h : source.InRange)
    {options : GenerateOptions} (hmodels : options.emitModels = true) {service : Service}
    (hservice : service ∈ source.services) (stats : Stats) :
    ∃ models, GeneratesModels source options service stats models ∧
      ((∀ root, options.SamplesBody service root → ∀ r, source.types.Contains root r →
          (models.map Prod.fst).count r = 1) ↔
        ∀ root, options.SamplesBody service root → ∀ r, source.types.Holds root r →
          ∃ root', options.SamplesBody service root' ∧ ∃ r', Synthesis.Direct source.types root' r' ∧
            ReflTransGen source.types.Nests r' r) := by
  obtain ⟨models, hgenerates, hnodup, hmem⟩ := h.generatesModels hmodels hservice stats
  refine ⟨models, hgenerates, ?_, ?_⟩
  · intro hcovers root hroot r hholds
    have hcount := hcovers root hroot r hholds.contains
    have hr : r ∈ models.map Prod.fst := List.count_pos_iff.1 (by omega)
    obtain ⟨r', hsamples, hnested⟩ := (hmem r).1 hr
    obtain ⟨root', hroot', hdirect⟩ := (options.samples_iff service).1 hsamples
    exact ⟨root', hroot', r', hdirect, hnested⟩
  · intro hheld root hroot r hcontains
    obtain ⟨r', hholds, hnested⟩ := h.closed.contains_iff.1 hcontains
    obtain ⟨root', hroot', r'', hdirect, hnested'⟩ := hheld root hroot r' hholds
    have hsamples := (options.samples_iff service).2 ⟨root', hroot', hdirect⟩
    exact List.count_eq_one_of_mem hnodup ((hmem r).2 ⟨r'', hsamples, hnested'.trans hnested⟩)

def petModels : GenerateOptions := ⟨petOptions, true, none, none, "pets.json"⟩

def petService : Service := ⟨"Pets", [postOwner], .none⟩

def petSource : Source := ⟨[petService], petGraph, []⟩

theorem petSource_inRange : petSource.InRange := by decide

attribute [local instance] Spelling.plain

theorem petSource_cover_iff :
    petSource.InRange ∧ petModels.emitModels = true ∧ petService ∈ petSource.services ∧
    ∃ models, GeneratesModels petSource petModels petService .zero models ∧
      ((∀ root, petModels.SamplesBody petService root → ∀ r, petGraph.Contains root r →
          (models.map Prod.fst).count r = 1) ↔
        ∀ root, petModels.SamplesBody petService root → ∀ r, petGraph.Holds root r →
          ∃ root', petModels.SamplesBody petService root' ∧ ∃ r', Synthesis.Direct petGraph root' r' ∧
            ReflTransGen petGraph.Nests r' r) :=
  have hservice : petService ∈ petSource.services := by simp [petSource]
  ⟨petSource_inRange, rfl, hservice, petSource_inRange.models_cover_iff rfl hservice .zero⟩

def rowGraph : TypeGraph := .ofList [.array ⟨1⟩, .array ⟨2⟩, .record (some "Owner") none []]

def rowService : Service := ⟨"Pets", [postOwner], .none⟩

def rowSource : Source := ⟨[rowService], rowGraph, []⟩

/-- The record behind two arrays is part of the body, and no model is written for it. -/
theorem rowSource_missed :
    rowSource.InRange ∧ petModels.emitModels = true ∧ rowService ∈ rowSource.services ∧
    petModels.SamplesBody rowService ⟨0⟩ ∧ rowGraph.Contains ⟨0⟩ ⟨2⟩ ∧
    ∃ models, GeneratesModels rowSource petModels rowService .zero models ∧
      (models.map Prod.fst).count ⟨2⟩ = 0 := by
  have hrange : rowSource.InRange := by decide
  have hservice : rowService ∈ rowSource.services := by simp [rowSource]
  have hsampled : postOwner.sampledType? = some ⟨0⟩ := by decide +kernel
  have hbody : petModels.SamplesBody rowService ⟨0⟩ :=
    ⟨postOwner, by simp [rowService], rfl, hsampled⟩
  have hrecord : rowGraph.IsRecord ⟨2⟩ := ⟨_, rfl, rfl⟩
  have houter : rowGraph.Passes ⟨0⟩ ⟨1⟩ := ⟨.array ⟨1⟩, rfl, rfl, List.mem_cons_self⟩
  have hinner : rowGraph.Passes ⟨1⟩ ⟨2⟩ := ⟨.array ⟨2⟩, rfl, rfl, List.mem_cons_self⟩
  have hmodels : petModels.emitModels = true := rfl
  obtain ⟨models, hgenerates, -, hmem⟩ := hrange.generatesModels hmodels hservice .zero
  refine ⟨hrange, hmodels, hservice, hbody, ?_, models, hgenerates, List.count_eq_zero.2 fun hmissed => ?_⟩
  · exact TypeGraph.Holds.contains ⟨.head houter (.single hinner), hrecord⟩
  · -- Directly in the place of the body is only the inner array.
    obtain ⟨r, ⟨op, hop, -, root, hroot, hdirect, node, hnode, hnoderecord⟩, -⟩ := (hmem ⟨2⟩).1 hmissed
    obtain rfl : op = postOwner := by simpa [rowService] using hop
    cases hsampled.symm.trans hroot
    rcases hdirect with rfl | ⟨outer, houter', -, hr⟩
    · cases hnode
      cases hnoderecord
    · cases houter'
      change r ∈ [(⟨1⟩ : TypeId)] at hr
      obtain rfl := List.mem_singleton.1 hr
      cases hnode
      cases hnoderecord

end RequestDocs
