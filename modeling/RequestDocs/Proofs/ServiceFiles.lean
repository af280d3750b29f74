import RequestDocs.Proofs.Generation
import RequestDocs.Proofs.ImportSpecifiers
import RequestDocs.Proofs.Layouts
/-!
# Files of services

What the files of laid out services are: a document or model reads the same wherever in the tree the
folder of its service stands.
-/

namespace RequestDocs

namespace Layout

def renderedDocument (service : String) (d : DocumentFile) : RenderedFile :=
  ⟨documentAddress service d.stem, d.contents⟩

def importText (binder : ImportBinder) (source : String) : String :=
  "// import " ++ binder.text ++ " from \"" ++ source ++ "\""

def siblingLine (name : String) : String :=
  importText (.default name) (ModuleTree.specifierText [name ++ "." ++ modelExtension])

def pointerLine (label : String) (service : ServiceOutput) (m : Model) : List String :=
  ((service.pointers.lookup m.name).map fun pointer => importText (.named [m.name]) (label ++ pointer)).toList

def modelText (label : String) (service : ServiceOutput) (m : Model) : List String :=
  (siblings service m).map siblingLine ++ pointerLine label service m ++ m.lines

def renderedModel (label : String) (service : ServiceOutput) (m : Model) : RenderedFile :=
  ⟨modelAddress service.name m.name, String.intercalate "\n" (modelText label service m)⟩

def serviceFiles (label : String) (service : ServiceOutput) : List RenderedFile :=
  service.documents.map (renderedDocument service.name) ++ service.models.map (renderedModel label service)

end Layout

namespace ModuleTree

variable {t : ModuleTree} {id : ModuleId} {m : Module}

theorem renderBelow_of_get (hm : t.get id = .ok m) (fuel : Nat) :
    t.renderBelow (fuel + 1) id = do
      let file ← t.ownFile id m
      return file ++ (← m.children.mapM (t.renderBelow fuel)).flatten := by
  rw [renderBelow, hm]
  rfl

private theorem mapM_mono {α β : Type} {f g : α → Except Fault β}
    (hle : ∀ x y, f x = .ok y → g x = .ok y) (xs : List α) (ys : List β) (h : xs.mapM f = .ok ys) :
    xs.mapM g = .ok ys := by
  induction xs generalizing ys with
  | nil => exact h
  | cons x xs ih =>
    rw [List.mapM_cons] at h ⊢
    cases hx : f x with
    | error => rw [hx] at h; cases h
    | ok y =>
      cases hxs : xs.mapM f with
      | error => rw [hx, hxs] at h; cases h
      | ok rest =>
        rw [hx, hxs] at h
        rw [hle x y hx, ih rest hxs]
        exact h

theorem renderBelow_mono (fuel : Nat) (id : ModuleId) (files : List RenderedFile)
    (h : t.renderBelow fuel id = .ok files) : t.renderBelow (fuel + 1) id = .ok files := by
  induction fuel generalizing id files with
  | zero => cases h
  | succ fuel ih =>
    cases hm : t.get id with
    | error =>
      rw [renderBelow, hm] at h
      cases h
    | ok m =>
      rw [renderBelow_of_get hm] at h ⊢
      cases hfile : t.ownFile id m with
      | error => rw [hfile] at h; cases h
      | ok file =>
        cases hbelow : m.children.mapM (t.renderBelow fuel) with
        | error => rw [hfile, hbelow] at h; cases h
        | ok below =>
          rw [hfile, hbelow] at h
          rw [mapM_mono ih m.children below hbelow]
          exact h

theorem mapM_of_forall₂ {α β : Type} {f : α → Except Fault β} {xs : List α} {ys : List β}
    (h : List.Forall₂ (fun x y => f x = .ok y) xs ys) : xs.mapM f = .ok ys := by
  induction h with
  | nil => rfl
  | cons hfirst _ ih =>
    rw [List.mapM_cons, hfirst, ih]
    rfl

theorem forall₂_places {α : Type} {R : ModuleId → α → Prop} (xs : List α) (first : Nat)
    (h : ∀ k x, xs[k]? = some x → R (.node (first + k)) x) :
    List.Forall₂ R ((List.range' first xs.length).map .node) xs := by
  induction xs generalizing first with
  | nil => exact .nil
  | cons x xs ih =>
    refine .cons (h 0 x rfl) (ih (first + 1) fun k y hy => ?_)
    rw [Nat.add_right_comm]
    exact h (k + 1) y hy

theorem renderBelow_file {i : Nat} (hi : 0 < i) (hm : t.modules[i]? = some m) (hcontent : m.hasContent)
    (hchildren : m.children = []) {text : String} (htext : t.contents (.node i) m = .ok text)
    (fuel : Nat) : t.renderBelow (fuel + 1) (.node i) = .ok [⟨m.filePath, text⟩] := by
  have hroot : ModuleId.node i ≠ root := by
    intro heq
    cases heq
    omega
  have hfile : t.ownFile (.node i) m = .ok [⟨m.filePath, text⟩] := by
    simp only [ownFile, hroot, hcontent, htext]
    rfl
  rw [renderBelow_of_get (get_node hm), hfile, hchildren]
  rfl

theorem renderBelow_folder {i first count : Nat}
    (hm : t.modules[i]? = some (m.declaringAll first count)) (himports : m.imports = [])
    (hnone : m.declarations = []) {fuel : Nat} {files : List (List RenderedFile)}
    (hfiles : List.Forall₂ (fun id files => t.renderBelow fuel id = .ok files)
      ((List.range' first count).map .node) files) :
    t.renderBelow (fuel + 1) (.node i) = .ok files.flatten := by
  have hcontent : (m.declaringAll first count).hasContent = false := by
    simp [Module.hasContent, Module.declaringAll, Module.isNested, himports, hnone]
  have hfile : t.ownFile (.node i) (m.declaringAll first count) = .ok [] := by
    simp only [ownFile, hcontent, Bool.not_false, Bool.or_true]
    rfl
  have hchildren : (m.declaringAll first count).children = (List.range' first count).map .node := by
    simp [Module.children, Module.declaringAll, hnone, List.filterMap_map]
  rw [renderBelow_of_get (get_node hm), hfile, hchildren, mapM_of_forall₂ hfiles]
  rfl

end ModuleTree

namespace Layout

variable {t : ModuleTree} {label : String} {service : ServiceOutput} {i first : Nat}

private theorem render_document {d : DocumentFile} {service : String} (hi : 0 < i)
    (hm : t.modules[i]? = some (documentModule service d)) (fuel : Nat) :
    t.renderBelow (fuel + 1) (.node i) = .ok [renderedDocument service d] := by
  have htext : t.contents (.node i) (documentModule service d) = .ok d.contents := by
    simp [ModuleTree.contents, documentModule, ModuleTree.declarationLines, Module.fresh]
    rfl
  exact ModuleTree.renderBelow_file hi hm rfl rfl htext fuel

private theorem importLine_sibling
    (h : t.Carries first (service.models.map (modelModule label service first))) {m : Model} {name : String}
    (hm : t.modules[i]? = some (modelModule label service first m))
    (hname : name ∈ service.modelNames) :
    t.importLine (.node i) (siblingImport service first name) = .ok (siblingLine name) := by
  have hidx := List.getElem?_idxOf hname
  obtain ⟨n, hn, rfl⟩ : ∃ n, service.models[service.modelNames.idxOf name]? = some n ∧
      n.name = name := by simpa [ServiceOutput.modelNames] using hidx
  have htarget := h _ (modelModule label service first n) (by rw [List.getElem?_map, hn]; rfl)
  have hsteps : TreePath.steps ⟨[service.name, modelsDirectory]⟩ ⟨[service.name, modelsDirectory, n.name]⟩
      (n.name ++ "." ++ modelExtension) = [n.name ++ "." ++ modelExtension] := by
    simp [TreePath.steps, TreePath.relative, TreePath.commonLength, ModuleTree.replaceLast]
  have hspecifier := ModuleTree.importSpecifier_node hm htarget
  change t.importSpecifier _ _ = .ok (ModuleTree.specifierText (TreePath.steps
    ⟨[service.name, modelsDirectory]⟩ ⟨[service.name, modelsDirectory, n.name]⟩
      (n.name ++ "." ++ modelExtension))) at hspecifier
  rw [hsteps] at hspecifier
  simp only [ModuleTree.importLine, siblingImport, hspecifier]
  rfl

private theorem render_model
    (h : t.Carries first (service.models.map (modelModule label service first))) (hfirst : 0 < first)
    {k : Nat} {m : Model} (hm : service.models[k]? = some m) (fuel : Nat) :
    t.renderBelow (fuel + 1) (.node (first + k)) = .ok [renderedModel label service m] := by
  have hmodule : t.modules[first + k]? = some (modelModule label service first m) :=
    h k _ (by rw [List.getElem?_map, hm]; rfl)
  have hsiblings : List.Forall₂ (fun item line => t.importLine (.node (first + k)) item = .ok line)
      ((siblings service m).map (siblingImport service first)) ((siblings service m).map siblingLine) := by
    rw [List.forall₂_map_left_iff, List.forall₂_map_right_iff, List.forall₂_same]
    intro name hname
    have hmem : name ∈ service.modelNames := (of_decide_eq_true (List.mem_filter.1 hname).2).1
    exact importLine_sibling h hmodule hmem
  have hpointer : List.Forall₂ (fun item line => t.importLine (.node (first + k)) item = .ok line)
      (pointerImport label service m) (pointerLine label service m) := by
    unfold pointerImport pointerLine
    cases service.pointers.lookup m.name with
    | none => exact .nil
    | some pointer => exact .cons rfl .nil
  have htext : t.contents (.node (first + k)) (modelModule label service first m) =
      .ok (String.intercalate "\n" (modelText label service m)) := by
    have himports := ModuleTree.mapM_of_forall₂ (List.rel_append hsiblings hpointer)
    have hlines : (modelModule label service first m).declarations.flatMap ModuleTree.declarationLines =
        m.lines := List.append_nil m.lines
    rw [ModuleTree.contents, hlines]
    change (List.mapM (t.importLine (.node (first + k))) (_ ++ _) >>= _) = _
    rw [himports]
    rfl
  have hcontent : (modelModule label service first m).hasContent = true := by
    simp [Module.hasContent, modelModule, Module.isNested]
  exact ModuleTree.renderBelow_file (by omega) hmodule hcontent rfl htext fuel

private theorem render_models (h : t.Carries i (modelModules label service i)) (hi : 0 < i)
    (hmodels : service.models.isEmpty = false) (fuel : Nat) :
    t.renderBelow (fuel + 2) (.node i) = .ok (service.models.map (renderedModel label service)) := by
  simp only [modelModules, hmodels] at h
  obtain ⟨hfolder, hcarries⟩ := ModuleTree.carries_cons.1 h
  have hfiles : List.Forall₂ (fun id files => t.renderBelow (fuel + 1) id = .ok files)
      ((List.range' (i + 1) service.models.length).map .node)
      (service.models.map fun m => [renderedModel label service m]) := by
    rw [List.forall₂_map_right_iff]
    apply ModuleTree.forall₂_places
    intro k m hm
    exact render_model hcarries (by omega) hm fuel
  rw [ModuleTree.renderBelow_folder hfolder rfl rfl hfiles, ← List.flatMap_def, ← List.map_eq_flatMap]

private theorem render_service (h : t.Carries i (serviceModules label service i)) (hi : 0 < i)
    (fuel : Nat) : t.renderBelow (fuel + 3) (.node i) = .ok (serviceFiles label service) := by
  obtain ⟨hfolder, hbelow⟩ := ModuleTree.carries_cons.1 h
  obtain ⟨hdocuments, hmodels⟩ := ModuleTree.carries_append.1 hbelow
  rw [List.length_map] at hmodels
  have hfiles : List.Forall₂ (fun id files => t.renderBelow (fuel + 2) id = .ok files)
      ((List.range' (i + 1) service.documents.length).map .node)
      (service.documents.map fun d => [renderedDocument service.name d]) := by
    rw [List.forall₂_map_right_iff]
    apply ModuleTree.forall₂_places
    intro k d hd
    have hdocument := hdocuments k (documentModule service.name d) (by rw [List.getElem?_map, hd]; rfl)
    exact render_document (by omega) hdocument (fuel + 1)
  unfold serviceFiles
  rw [List.map_eq_flatMap, List.flatMap_def]
  cases hnone : service.models.isEmpty with
  | true =>
    rw [hnone] at hfolder
    rw [ModuleTree.renderBelow_folder hfolder rfl rfl hfiles, List.isEmpty_iff.1 hnone, List.map_nil,
      List.append_nil]
  | false =>
    rw [hnone] at hfolder
    have hplace : 0 < i + 1 + service.documents.length := by omega
    have hall : List.Forall₂ (fun id files => t.renderBelow (fuel + 2) id = .ok files)
        ((List.range' (i + 1) (service.documents.length + 1)).map .node)
        (service.documents.map (fun d => [renderedDocument service.name d]) ++
          [service.models.map (renderedModel label service)]) := by
      rw [List.range'_1_concat, List.map_append]
      exact List.rel_append hfiles (.cons (render_models hmodels hplace hnone fuel) .nil)
    rw [ModuleTree.renderBelow_folder hfolder rfl rfl hall]
    simp

theorem files_eq (label : String) (outputs : List ServiceOutput)
    (hnames : ∀ service ∈ outputs, service.modelNames.Nodup) :
    files label outputs = .ok (outputs.flatMap (serviceFiles label)) := by
  obtain ⟨t, htree, root, hlays⟩ := services_lays label outputs hnames
  obtain ⟨result, hresult, -⟩ := files_ok label outputs
  have hrender : t.render = .ok result := by
    rw [files, htree] at hresult
    exact hresult
  have hfolders : List.Forall₂ (fun id files => t.renderBelow (t.modules.size + 3) id = .ok files)
      root.children (outputs.map (serviceFiles label)) := by
    rw [List.forall₂_map_right_iff]
    refine hlays.folders.imp fun id service hstands => ?_
    obtain ⟨i, rfl, hi, hcarries⟩ := hstands
    exact render_service hcarries hi t.modules.size
  have hfile : t.ownFile ModuleTree.root root = .ok [] := by
    simp [ModuleTree.ownFile]
    rfl
  have hroot : t.get ModuleTree.root = .ok root := ModuleTree.get_node hlays.found
  have hall : t.renderBelow (t.modules.size + 4) ModuleTree.root =
      .ok (outputs.flatMap (serviceFiles label)) := by
    rw [ModuleTree.renderBelow_of_get hroot, hfile, ModuleTree.mapM_of_forall₂ hfolders,
      List.flatMap_def]
    rfl
  have hmore : t.renderBelow (t.modules.size + 4) ModuleTree.root = .ok result := by
    iterate 3 apply ModuleTree.renderBelow_mono
    exact hrender
  rw [hresult, ← hmore, hall]

end Layout

end RequestDocs
