import Mathlib.Data.List.Nodup
import RequestDocs.Generation.Layout
import RequestDocs.Proofs.ModuleSteps
import RequestDocs.Proofs.Steps
/-!
# Layouts

The tree that services are laid out in, place by place: each service adds its folder after all others,
with its documents and models in the places that follow.
-/

namespace RequestDocs

def ServiceOutput.modelNames (service : ServiceOutput) : List String := service.models.map (·.name)

namespace Layout

def documentModule (service : String) (d : DocumentFile) : Module :=
  { Module.fresh d.stem ⟨[service, d.stem]⟩ (some service) (some Document.extension) with
    declarations := [.line d.contents] }

def emptyModel (service : String) (m : Model) : Module :=
  .fresh m.name ⟨[service, modelsDirectory, m.name]⟩ (some service) (some modelExtension)

/-- The dependencies of a model that are other models of the service. -/
def siblings (service : ServiceOutput) (m : Model) : List String :=
  m.dependencies.filter fun name => name ∈ service.modelNames ∧ name ≠ m.name

def pointerImport (label : String) (service : ServiceOutput) (m : Model) : List Import :=
  ((service.pointers.lookup m.name).map fun pointer =>
    ⟨.named [m.name], .literal (label ++ pointer)⟩).toList

def siblingImport (service : ServiceOutput) (first : Nat) (name : String) : Import :=
  ⟨.default name, .module (.node (first + service.modelNames.idxOf name))⟩

def modelModule (label : String) (service : ServiceOutput) (first : Nat) (m : Model) : Module :=
  { emptyModel service.name m with
    imports := (siblings service m).map (siblingImport service first) ++ pointerImport label service m
    declarations := [.block m.lines] }

def modelsFolder (service : ServiceOutput) : Module :=
  .fresh modelsDirectory ⟨[service.name, modelsDirectory]⟩ (some service.name) none

/-- The folder of the models at a place, and the models; nothing without models. -/
def modelModules (label : String) (service : ServiceOutput) (place : Nat) : List Module :=
  if service.models.isEmpty then []
  else (modelsFolder service).declaringAll (place + 1) service.models.length ::
    service.models.map (modelModule label service (place + 1))

def serviceFolder (service : ServiceOutput) : Module :=
  .fresh service.name ⟨[service.name]⟩ (some service.name) none

/-- The modules of a service, the first of them at a place. -/
def serviceModules (label : String) (service : ServiceOutput) (place : Nat) : List Module :=
  (serviceFolder service).declaringAll (place + 1)
      (service.documents.length + if service.models.isEmpty then 0 else 1) ::
    (service.documents.map (documentModule service.name) ++
      modelModules label service (place + 1 + service.documents.length))

variable {t : ModuleTree} {i : Nat} {folder : Module} {label : String} {service : ServiceOutput}

private theorem append_declaring (hm : t.modules[i]? = some folder) (x : Module) (xs : List Module) :
    (((t.set i (folder.declaring t.modules.size)).append [x]).set i
      ((folder.declaring t.modules.size).declaringAll (t.modules.size + 1) xs.length)).append xs =
      (t.set i (folder.declaringAll t.modules.size (xs.length + 1))).append (x :: xs) := by
  have hi : i < (t.set i (folder.declaring t.modules.size)).modules.size := by
    simpa using ModuleTree.lt_size hm
  rw [ModuleTree.set_append_left hi, ModuleTree.set_set, ModuleTree.append_append,
    ← Module.declaringAll_one, Module.declaringAll_declaringAll, Nat.add_comm 1]
  rfl

private theorem addDocuments_eq (documents : List DocumentFile) (hm : t.modules[i]? = some folder)
    (hpath : folder.path = ⟨[service.name]⟩) (hgroup : folder.group = some service.name) :
    addDocuments (.node i) t documents =
      .ok ((t.set i (folder.declaringAll t.modules.size documents.length)).append
        (documents.map (documentModule service.name))) := by
  induction documents generalizing t folder with
  | nil =>
    rw [List.length_nil, Module.declaringAll_zero, ModuleTree.set_self hm, List.map_nil,
      ModuleTree.append_nil]
    rfl
  | cons d ds ih =>
    have hi := ModuleTree.lt_size hm
    have hcreate := ModuleTree.createFile_node hm d.stem Document.extension
    rw [hpath, hgroup] at hcreate
    have hfolder := ModuleTree.getElem?_append_left [documentModule service.name d]
      (ModuleTree.getElem?_set_self (n := folder.declaring t.modules.size) hi)
    rw [addDocuments, hcreate]
    change (ModuleTree.declare _ _ _ >>= fun t => addDocuments (.node i) t ds) = _
    rw [ModuleTree.declare_node ModuleTree.getElem?_attached_new, ModuleTree.set_attached_new]
    change addDocuments (.node i) ((t.set i (folder.declaring t.modules.size)).append
      [documentModule service.name d]) ds = _
    have hgrown := append_declaring hm (documentModule service.name d)
      (ds.map (documentModule service.name))
    rw [List.length_map] at hgrown
    rw [ih hfolder hpath hgroup, ModuleTree.size_append, ModuleTree.size_set, List.length_singleton,
      hgrown]
    rfl

def modelPlaces (first : Nat) : List Model → List (String × ModuleId)
  | [] => []
  | m :: ms => (m.name, .node first) :: modelPlaces (first + 1) ms

private theorem createModels_eq (models : List Model) (hm : t.modules[i]? = some folder)
    (hpath : folder.path = ⟨[service.name, modelsDirectory]⟩)
    (hgroup : folder.group = some service.name) :
    createModels (.node i) t models = .ok (modelPlaces t.modules.size models,
      (t.set i (folder.declaringAll t.modules.size models.length)).append
        (models.map (emptyModel service.name))) := by
  induction models generalizing t folder with
  | nil =>
    rw [List.length_nil, Module.declaringAll_zero, ModuleTree.set_self hm, List.map_nil,
      ModuleTree.append_nil]
    rfl
  | cons m ms ih =>
    have hi := ModuleTree.lt_size hm
    have hcreate := ModuleTree.createFile_node hm m.name modelExtension
    rw [hpath, hgroup, ModuleTree.attached_eq] at hcreate
    have hfolder := ModuleTree.getElem?_append_left [emptyModel service.name m]
      (ModuleTree.getElem?_set_self (n := folder.declaring t.modules.size) hi)
    have hgrown := append_declaring hm (emptyModel service.name m) (ms.map (emptyModel service.name))
    rw [List.length_map] at hgrown
    rw [createModels, hcreate]
    change (createModels (.node i) ((t.set i (folder.declaring t.modules.size)).append
      [emptyModel service.name m]) ms >>= _) = _
    rw [ih hfolder hpath hgroup, ModuleTree.size_append, ModuleTree.size_set, List.length_singleton,
      hgrown]
    rfl

theorem modelFile?_modelPlaces (first : Nat) {models : List Model}
    (h : (models.map (·.name)).Nodup) (name : String) :
    modelFile? (modelPlaces first models) name =
      if name ∈ models.map (·.name) then some (.node (first + (models.map (·.name)).idxOf name))
      else none := by
  induction models generalizing first with
  | nil => rfl
  | cons m ms ih =>
    obtain ⟨hm, hms⟩ := List.nodup_cons.1 h
    have hlast : modelFile? (modelPlaces first (m :: ms)) name =
        (modelFile? (modelPlaces (first + 1) ms) name).or ([(m.name, ModuleId.node first)].lookup name) := by
      rw [modelFile?, modelPlaces, List.reverse_cons, List.lookup_append]
      rfl
    rw [hlast, ih (first + 1) hms]
    by_cases hname : name = m.name
    · subst hname
      rw [if_neg hm]
      simp
    · have hne : (name == m.name) = false := by simpa using hname
      simp only [List.lookup_cons, List.lookup_nil, hne, Option.or_none, List.map_cons, List.mem_cons, hname, false_or]
      rw [List.idxOf_cons_ne _ (Ne.symm hname), Nat.add_assoc, Nat.add_comm 1]

private theorem modelFile?_eq (hnames : service.modelNames.Nodup) (first : Nat) (name : String) :
    modelFile? (modelPlaces first service.models) name =
      if name ∈ service.modelNames then some (.node (first + service.modelNames.idxOf name))
      else none :=
  modelFile?_modelPlaces first hnames name

variable {first : Nat} {m : Model} {n : Module}

private theorem addDependencies_eq (hnames : service.modelNames.Nodup)
    (names : List String) {place : Nat}
    (hplace : place = first + service.modelNames.idxOf m.name)
    (hn : t.modules[place]? = some n) :
    addDependencies (modelPlaces first service.models) (.node place) t names =
      .ok (t.set place { n with
        imports := n.imports ++ (names.filter fun name =>
          name ∈ service.modelNames ∧ name ≠ m.name).map (siblingImport service first) }) := by
  induction names generalizing t n with
  | nil => simp [addDependencies, ModuleTree.set_self hn]; rfl
  | cons name names ih =>
    have hi := ModuleTree.lt_size hn
    unfold addDependencies
    rw [modelFile?_eq hnames first]
    by_cases hname : name ∈ service.modelNames
    · rw [if_pos hname]
      by_cases hsame : name = m.name
      · have hself : ModuleId.node (first + service.modelNames.idxOf name) = .node place := by
          rw [hsame, hplace]
        simp only [hself, if_true]
        rw [ih hn, List.filter_cons_of_neg (by simp [hsame])]
      · have hother : ModuleId.node (first + service.modelNames.idxOf name) ≠ .node place := by
          intro heq
          have hidx := ModuleId.node.inj heq
          rw [hplace, Nat.add_left_cancel_iff, List.idxOf_inj hname] at hidx
          exact hsame hidx
        simp only [hother, if_false]
        have hitem : (siblingImport service first name).source ≠ .module .detached := by
          simp [siblingImport]
        have himport := ModuleTree.addImport_node hn hitem
        change (ModuleTree.addImport t (.node place) (siblingImport service first name) >>= fun t =>
          addDependencies _ (.node place) t names) = _
        rw [himport]
        change addDependencies _ _ (t.set place _) names = _
        rw [ih (ModuleTree.getElem?_set_self hi), ModuleTree.set_set,
          List.filter_cons_of_pos (by simp [hname, hsame])]
        simp
    · rw [if_neg hname, List.filter_cons_of_neg (by simp [hname])]
      exact ih hn

private theorem addPointer_eq (hn : t.modules[i]? = some n) :
    addPointer label service.pointers (.node i) m.name t =
      .ok (t.set i { n with imports := n.imports ++ pointerImport label service m }) := by
  unfold addPointer pointerImport
  cases hpointer : service.pointers.lookup m.name with
  | none => simp [ModuleTree.set_self hn]; rfl
  | some pointer => exact ModuleTree.addImport_node hn (by simp)

private theorem fillModel_bind (hnames : service.modelNames.Nodup) {place : Nat}
    (hplace : place = first + service.modelNames.idxOf m.name)
    (hn : t.modules[place]? = some (emptyModel service.name m)) {α : Type}
    (next : ModuleTree → Except Fault α) :
    (do
      let t ← addDependencies (modelPlaces first service.models) (.node place) t m.dependencies
      let t ← addPointer label service.pointers (.node place) m.name t
      next (← t.declare (.node place) (.block m.lines))) =
      next (t.set place (modelModule label service first m)) := by
  have hlater {n : Module} : (t.set place n).modules[place]? = some n :=
    ModuleTree.getElem?_set_self (ModuleTree.lt_size hn)
  rw [addDependencies_eq hnames m.dependencies hplace hn]
  change (addPointer _ _ _ _ (t.set place _) >>= _) = _
  rw [addPointer_eq hlater, ModuleTree.set_set]
  change (ModuleTree.declare (t.set place _) _ _ >>= _) = _
  rw [ModuleTree.declare_node hlater, ModuleTree.set_set]
  rfl

private theorem fillModels_eq (t : ModuleTree) (label : String) (hnames : service.modelNames.Nodup)
    (done rest : List Model) (hmodels : service.models = done ++ rest) :
    fillModels label (modelPlaces t.modules.size service.models) service.pointers
      (t.append (done.map (modelModule label service t.modules.size) ++
        rest.map (emptyModel service.name))) rest =
      .ok (t.append (service.models.map (modelModule label service t.modules.size))) := by
  induction rest generalizing done with
  | nil => simp [fillModels, hmodels]; rfl
  | cons m rest ih =>
    have hsplit : service.modelNames = done.map (·.name) ++ m.name :: rest.map (·.name) := by
      simp [ServiceOutput.modelNames, hmodels]
    have hm : m.name ∈ service.modelNames := by simp [hsplit]
    -- No model before has the name of this one, so it is the one found under it.
    have hplace : t.modules.size + done.length =
        t.modules.size + service.modelNames.idxOf m.name := by
      have hnew : m.name ∉ done.map (·.name) := by
        rw [hsplit, List.nodup_append'] at hnames
        exact fun hmem => hnames.2.2 hmem List.mem_cons_self
      rw [hsplit, List.idxOf_append_of_notMem hnew, List.idxOf_cons_self, List.length_map]
      rfl
    have hn : (t.append (done.map (modelModule label service t.modules.size) ++
        (m :: rest).map (emptyModel service.name))).modules[t.modules.size + done.length]? =
        some (emptyModel service.name m) := by
      rw [ModuleTree.getElem?_append_right]
      simp
    have hfilled := @ModuleTree.set_append_right t (done.map (modelModule label service t.modules.size))
      (rest.map (emptyModel service.name)) (emptyModel service.name m)
      (modelModule label service t.modules.size m)
    rw [List.length_map, ← List.map_cons] at hfilled
    unfold fillModels
    rw [modelFile?_eq hnames t.modules.size, if_pos hm, ← hplace]
    simp only
    rw [fillModel_bind hnames hplace hn, hfilled]
    have hrest := ih (done ++ [m]) (by simp [hmodels])
    rw [List.map_append, List.append_assoc] at hrest
    exact hrest

private theorem addModels_eq (hnames : service.modelNames.Nodup)
    (hm : t.modules[i]? = some folder) (hpath : folder.path = ⟨[service.name]⟩) :
    addModels label service (.node i) t =
      .ok ((t.set i (folder.declaringAll t.modules.size (if service.models.isEmpty then 0 else 1))).append
        (modelModules label service t.modules.size)) := by
  unfold addModels modelModules
  split
  · rw [Module.declaringAll_zero, ModuleTree.set_self hm, ModuleTree.append_nil]
    rfl
  · have hcreate := ModuleTree.createModule_node hm modelsDirectory (some service.name)
    rw [hpath] at hcreate
    rw [hcreate]
    change (createModels (.node t.modules.size) (t.attached i folder (modelsFolder service))
      service.models >>= _) = _
    rw [createModels_eq service.models ModuleTree.getElem?_attached_new rfl rfl,
      ModuleTree.set_attached_new, ModuleTree.size_attached]
    have hfill := fillModels_eq ((t.set i (folder.declaring t.modules.size)).append
      [(modelsFolder service).declaringAll (t.modules.size + 1) service.models.length])
      label hnames [] service.models rfl
    rw [ModuleTree.size_append, ModuleTree.size_set] at hfill
    rw [Module.declaringAll_one]
    refine hfill.trans ?_
    rw [ModuleTree.append_append]
    rfl

private theorem addService_eq (hnames : service.modelNames.Nodup) {root : Module}
    (hroot : t.modules[0]? = some root) (hpath : root.path = .root) :
    addService label t service = .ok ((t.set 0 (root.declaring t.modules.size)).append
      (serviceModules label service t.modules.size)) := by
  have hcreate := ModuleTree.createModule_node hroot service.name (some service.name)
  rw [hpath] at hcreate
  have hfolder : (t.attached 0 root (serviceFolder service)).modules[t.modules.size]? =
      some (serviceFolder service) := ModuleTree.getElem?_attached_new
  unfold addService
  change (t.createModule _ (.node 0) _ >>= _) = _
  rw [hcreate]
  change (addDocuments (.node t.modules.size) (t.attached 0 root (serviceFolder service))
    service.documents >>= _) = _
  rw [addDocuments_eq service.documents hfolder rfl rfl, ModuleTree.set_attached_new,
    ModuleTree.size_attached]
  change addModels label service (.node t.modules.size) (ModuleTree.append _ _) = _
  rw [ModuleTree.append_append, List.singleton_append]
  generalize hu : t.set 0 (root.declaring t.modules.size) = u
  have hsize : u.modules.size = t.modules.size := by rw [← hu, ModuleTree.size_set]
  have hplaces : t.modules.size + (service.documents.length + 1) =
      t.modules.size + 1 + service.documents.length := by omega
  rw [← hsize] at hplaces ⊢
  rw [addModels_eq hnames ModuleTree.getElem?_append_first rfl, ModuleTree.set_append_first,
    ModuleTree.size_append, List.length_cons, List.length_map, hplaces,
    Module.declaringAll_declaringAll, ModuleTree.append_append]
  rfl

/-- The service stands in the tree, its folder at a place after the root. -/
def Stands (label : String) (t : ModuleTree) (id : ModuleId) (service : ServiceOutput) : Prop :=
  ∃ i, id = .node i ∧ 0 < i ∧ t.Carries i (serviceModules label service i)

/-- The root of the tree declares the folders of the services. -/
structure Lays (label : String) (t : ModuleTree) (root : Module) (services : List ServiceOutput) :
    Prop where
  found : t.modules[0]? = some root
  path : root.path = .root
  folders : List.Forall₂ (Stands label t) root.children services

private theorem addService_lays {root : Module} {services : List ServiceOutput}
    (h : Lays label t root services) (hnames : service.modelNames.Nodup) :
    Succeeds (addService label t service) fun t' => ∃ root', Lays label t' root' (services ++ [service]) := by
  have hsize : 0 < t.modules.size := ModuleTree.lt_size h.found
  refine ⟨_, addService_eq hnames h.found h.path, root.declaring t.modules.size, ?_, h.path, ?_⟩
  · exact ModuleTree.getElem?_append_left _ (ModuleTree.getElem?_set_self hsize)
  · have hchildren : (root.declaring t.modules.size).children = root.children ++ [.node t.modules.size] := by
      simp [Module.declaring, Module.children]
    rw [hchildren]
    refine List.rel_append (h.folders.imp fun id service' hstands => ?_) (.cons ?_ .nil)
    · obtain ⟨i, rfl, hi, hcarries⟩ := hstands
      exact ⟨i, rfl, hi, (hcarries.set hi _).append _⟩
    · refine ⟨t.modules.size, rfl, hsize, ?_⟩
      have hnew := ModuleTree.carries_appended (t.set 0 (root.declaring t.modules.size))
        (serviceModules label service t.modules.size)
      rwa [ModuleTree.size_set] at hnew

private theorem addServices_lays (rest : List ServiceOutput)
    (hnames : ∀ service ∈ rest, service.modelNames.Nodup) {root : Module}
    {services : List ServiceOutput} (h : Lays label t root services) :
    Succeeds (rest.foldlM (addService label) t) fun t' =>
      ∃ root', Lays label t' root' (services ++ rest) := by
  induction rest generalizing t root services with
  | nil => exact .pure ⟨root, by rwa [List.append_nil]⟩
  | cons service rest ih =>
    obtain ⟨hfirst, hrest⟩ := List.forall_mem_cons.1 hnames
    rw [List.foldlM_cons]
    refine .bind (addService_lays h hfirst) fun t₁ ⟨root₁, h₁⟩ => ?_
    have hall := ih hrest h₁
    rwa [List.append_assoc] at hall

theorem services_lays (label : String) (services : List ServiceOutput)
    (hnames : ∀ service ∈ services, service.modelNames.Nodup) :
    Succeeds (services.foldlM (addService label) .empty) fun t => ∃ root, Lays label t root services := by
  have hempty : Lays label .empty .root [] := ⟨rfl, rfl, .nil⟩
  exact addServices_lays services hnames hempty

end Layout

end RequestDocs
