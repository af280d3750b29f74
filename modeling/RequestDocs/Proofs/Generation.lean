import RequestDocs.Proofs.ModuleTrees
import RequestDocs.Proofs.Services
/-!
# Generation without faults

The layout of any outputs is in range, so that generation from a source in range meets no fault. Each
file is a document or model of a service, in the folder of that service.
-/

namespace RequestDocs

namespace Layout

def documentAddress (service stem : String) : String :=
  FilePath.push (FilePath.ofComponents [service]) (stem ++ "." ++ Document.extension)

def modelAddress (service name : String) : String :=
  FilePath.push (FilePath.ofComponents [service, modelsDirectory]) (name ++ "." ++ modelExtension)

def HasAddress (service : ServiceOutput) (path : String) : Prop :=
  (∃ d ∈ service.documents, path = documentAddress service.name d.stem) ∨
    ∃ m ∈ service.models, path = modelAddress service.name m.name

variable {addresses : String → Prop} {t : ModuleTree} {parent id : ModuleId} {path : TreePath}
  {fileName : String}

private def IsFile (addresses : String → Prop) (t : ModuleTree) (id : ModuleId) : Prop :=
  ∃ path fileName, t.At id path fileName ∧ addresses (path.address fileName)

private theorem IsFile.extends {t' : ModuleTree} (h : IsFile addresses t id)
    (hext : ModuleTree.Extends addresses t t') : IsFile addresses t' id := by
  obtain ⟨path, fileName, hid, haddress⟩ := h
  exact ⟨path, fileName, hext.places id path fileName hid, haddress⟩

private theorem addDocuments_ok (h : t.InRange addresses) (hparent : t.At parent path fileName)
    (documents : List DocumentFile) (hdocuments : ∀ d ∈ documents,
      addresses ((path.enter [d.stem]).address (d.stem ++ "." ++ Document.extension))) :
    Succeeds (addDocuments parent t documents) (ModuleTree.Extends addresses t) := by
  induction documents generalizing t with
  | nil => exact .pure (.refl h)
  | cons d ds ih =>
    obtain ⟨hd, hds⟩ := List.forall_mem_cons.1 hdocuments
    refine .bind (ModuleTree.createFile_ok h _ _ hparent) fun (id, t₁) ⟨h₁, hid⟩ => ?_
    refine .bind (ModuleTree.declare_ok h₁.inRange hid hd rfl) fun t₂ h₂ => ?_
    have h₁₂ := h₁.trans h₂
    exact (ih h₂.inRange (h₁₂.places _ _ _ hparent) hds).mono fun _ h₃ => h₁₂.trans h₃

private theorem createModels_ok (h : t.InRange addresses) (hparent : t.At parent path fileName)
    (models : List Model) (hmodels : ∀ m ∈ models,
      addresses ((path.enter [m.name]).address (m.name ++ "." ++ modelExtension))) :
    Succeeds (createModels parent t models) fun r =>
      ModuleTree.Extends addresses t r.2 ∧ ∀ file ∈ r.1, IsFile addresses r.2 file.2 := by
  induction models generalizing t with
  | nil => exact .pure ⟨.refl h, by simp⟩
  | cons m ms ih =>
    obtain ⟨hm, hms⟩ := List.forall_mem_cons.1 hmodels
    refine .bind (ModuleTree.createFile_ok h _ _ hparent) fun (id, t₁) ⟨h₁, hid⟩ => ?_
    refine .bind (ih h₁.inRange (h₁.places _ _ _ hparent) hms) fun (ids, t₂) ⟨h₂, hids⟩ => ?_
    refine .pure ⟨h₁.trans h₂, fun file hfile => ?_⟩
    rcases List.mem_cons.1 hfile with rfl | hfile
    · exact IsFile.extends ⟨_, _, hid, hm⟩ h₂
    · exact hids file hfile

private theorem mem_of_modelFile {ids : List (String × ModuleId)} {name : String} {id : ModuleId}
    (h : modelFile? ids name = some id) : (name, id) ∈ ids :=
  List.mem_reverse.1 (mem_of_lookup h)

variable {ids : List (String × ModuleId)}

private theorem addDependencies_ok (h : t.InRange addresses)
    (hids : ∀ file ∈ ids, IsFile addresses t file.2) (hid : IsFile addresses t id)
    (names : List String) :
    Succeeds (addDependencies ids id t names) (ModuleTree.Extends addresses t) := by
  induction names generalizing t with
  | nil => exact .pure (.refl h)
  | cons name rest ih =>
    unfold addDependencies
    split
    · next target hfile =>
      split
      · exact ih h hids hid
      · have htarget : t.Has target := by
          obtain ⟨_, _, hat, -⟩ := hids _ (mem_of_modelFile hfile)
          exact hat.has
        obtain ⟨path, fileName, hat, haddress⟩ := hid
        refine .bind (ModuleTree.addImport_ok h hat haddress ?_) fun t₁ h₁ => ?_
        · rintro _ ⟨⟩
          exact htarget
        · refine (ih h₁.inRange (fun file hf => (hids file hf).extends h₁) ?_).mono fun _ h₂ => ?_
          · exact IsFile.extends ⟨path, fileName, hat, haddress⟩ h₁
          · exact h₁.trans h₂
    · exact ih h hids hid

private theorem addPointer_ok (h : t.InRange addresses) (label : String)
    (pointers : List (String × String)) (hid : IsFile addresses t id) (name : String) :
    Succeeds (addPointer label pointers id name t) (ModuleTree.Extends addresses t) := by
  unfold addPointer
  split
  · obtain ⟨path, fileName, hat, haddress⟩ := hid
    exact ModuleTree.addImport_ok h hat haddress nofun
  · exact .pure (.refl h)

private theorem fillModels_ok (h : t.InRange addresses)
    (hids : ∀ file ∈ ids, IsFile addresses t file.2) (label : String)
    (pointers : List (String × String)) (models : List Model) :
    Succeeds (fillModels label ids pointers t models) (ModuleTree.Extends addresses t) := by
  induction models generalizing t with
  | nil => exact .pure (.refl h)
  | cons m ms ih =>
    unfold fillModels
    split
    · next id hfile =>
      have hid : IsFile addresses t id := hids _ (mem_of_modelFile hfile)
      refine .bind (addDependencies_ok h hids hid _) fun t₁ h₁ => ?_
      refine .bind (addPointer_ok h₁.inRange label pointers (hid.extends h₁) _) fun t₂ h₂ => ?_
      have h₁₂ := h₁.trans h₂
      obtain ⟨path, fileName, hat, haddress⟩ := hid.extends h₁₂
      refine .bind (ModuleTree.declare_ok h₂.inRange hat haddress rfl) fun t₃ h₃ => ?_
      have h₁₃ := h₁₂.trans h₃
      exact (ih h₃.inRange fun file hf => (hids file hf).extends h₁₃).mono fun _ h₄ => h₁₃.trans h₄
    · exact ih h hids

private theorem addModels_ok (h : t.InRange addresses) (label : String) (service : ServiceOutput)
    (hparent : t.At parent (.enter .root [service.name]) fileName)
    (hservice : ∀ p, HasAddress service p → addresses p) :
    Succeeds (addModels label service parent t) (ModuleTree.Extends addresses t) := by
  unfold addModels
  split
  · exact .pure (.refl h)
  · refine .bind (ModuleTree.attach_ok h _ hparent _ _) fun (directory, t₁) ⟨h₁, hdir⟩ => ?_
    refine .bind (createModels_ok h₁.inRange hdir _ fun m hm => ?_) fun (ids, t₂) ⟨h₂, hids⟩ => ?_
    · exact hservice _ (.inr ⟨m, hm, rfl⟩)
    · refine (fillModels_ok h₂.inRange hids label _ _).mono fun _ h₃ => ?_
      exact (h₁.trans h₂).trans h₃

private theorem addService_ok (h : t.InRange addresses) (label : String) (service : ServiceOutput)
    (hservice : ∀ p, HasAddress service p → addresses p) :
    Succeeds (addService label t service) (ModuleTree.Extends addresses t) := by
  refine .bind (ModuleTree.attach_ok h _ h.root _ _) fun (id, t₁) ⟨h₁, hid⟩ => ?_
  refine .bind (addDocuments_ok h₁.inRange hid _ fun d hd => ?_) fun t₂ h₂ => ?_
  · exact hservice _ (.inl ⟨d, hd, rfl⟩)
  · have h₁₂ := h₁.trans h₂
    have hmodels := addModels_ok h₂.inRange label service (h₂.places _ _ _ hid) hservice
    exact hmodels.mono fun _ h₃ => h₁₂.trans h₃

/-- All outputs have files, and each file is a document or model: the tree is in range, and the
detached module plays no part in it. -/
theorem files_ok (label : String) (services : List ServiceOutput) :
    Succeeds (files label services) fun files =>
      ∀ file ∈ files, ∃ service ∈ services, HasAddress service file.path := by
  have htree : Succeeds (services.foldlM (addService label) ModuleTree.empty)
      (ModuleTree.InRange fun p => ∃ service ∈ services, HasAddress service p) := by
    refine .foldlM services _ ModuleTree.empty_inRange fun service hservice t h => ?_
    have hadd := addService_ok h label service fun p hp => ⟨service, hservice, hp⟩
    exact hadd.mono fun _ h' => h'.inRange
  exact .bind htree fun t h => ModuleTree.render_ok h

end Layout

/-- The path is that of a document of the service, or of a model with some name. -/
def GenerateOptions.HasPath (options : GenerateOptions) (service : Service) (path : String) : Prop :=
  (∃ op ∈ service.operations, options.Selects op ∧ ∃ suffix, IsIdentifier suffix ∧
      path = Layout.documentAddress service.name (op.documentStem ++ suffix)) ∨
    ∃ name, IsIdentifier name ∧ path = Layout.modelAddress service.name name

theorem generate_paths [Spelling]
    {source : Source} (h : source.InRange) (options : GenerateOptions) :
    Succeeds (generate source options) fun result =>
      ∀ file ∈ result.1, ∃ service ∈ source.services, options.HasPath service file.path := by
  refine .bind (generateServices_ok h options _ (List.Subset.refl _) .zero)
    fun (outputs, _) houtputs => ?_
  refine .bind (Layout.files_ok _ outputs) fun files hfiles => .pure fun file hfile => ?_
  obtain ⟨output, houtput, hpath⟩ := hfiles file hfile
  obtain ⟨service, hservice, hname, hdocuments, hmodels⟩ := houtputs output houtput
  refine ⟨service, hservice, ?_⟩
  rcases hpath with ⟨d, hd, hpath⟩ | ⟨m, hm, hpath⟩
  · obtain ⟨op, hop, hselects, suffix, hsuffix, hstem⟩ := hdocuments d hd
    exact .inl ⟨op, hop, hselects, suffix, hsuffix, by rw [hpath, hname, hstem]⟩
  · exact .inr ⟨m.name, hmodels m hm, by rw [hpath, hname]⟩

theorem generate_ok [Spelling] {source : Source} (h : source.InRange) (options : GenerateOptions) :
    Succeeds (generate source options) fun _ => True :=
  (generate_paths h options).mono fun _ _ => trivial

end RequestDocs
