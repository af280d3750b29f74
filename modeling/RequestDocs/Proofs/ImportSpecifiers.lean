import RequestDocs.ModuleTree.Render
import RequestDocs.Proofs.JoinedPaths
import RequestDocs.Proofs.ModuleSteps
import RequestDocs.Proofs.Steps
/-!
# Import specifiers

The text by which one module imports another, followed from the directory that holds the file of the
first. In trees of plain names it leads to the file of the second, unless that stands above.
-/

namespace RequestDocs

open FilePath

namespace TreePath

def steps (directory target : TreePath) (fileName : String) : List String :=
  ModuleTree.replaceLast (directory.relative target parentSegment) fileName

theorem commonLength_of_prefix (as bs : List String) : commonLength (as ++ bs) as = as.length := by
  induction as with
  | nil => cases bs <;> rfl
  | cons a as ih => simp [commonLength, ih]

theorem commonLength_lt {as bs : List String} (h : ¬bs <+: as) : commonLength as bs < bs.length := by
  apply Nat.lt_of_le_of_ne (commonLength_le as bs).2
  intro hlength
  apply h
  have htake := take_commonLength as bs
  rw [hlength, List.take_length] at htake
  rw [← htake]
  exact List.take_prefix bs.length as

theorem replaceLast_concat (segments : List String) (last fileName : String) :
    ModuleTree.replaceLast (segments ++ [last]) fileName = segments ++ [fileName] := by
  simp [ModuleTree.replaceLast]

theorem mem_of_mem_steps {directory target : TreePath} {fileName c : String}
    (h : c ∈ steps directory target fileName) : c = up ∨ c ∈ target.segments ∨ c = fileName := by
  unfold steps ModuleTree.replaceLast at h
  split at h
  · cases h
  · rcases List.mem_append.1 h with h | h
    · rcases List.mem_append.1 (List.dropLast_subset _ h) with h | h
      · exact .inl (List.eq_of_mem_replicate h)
      · exact .inr (.inl (List.mem_of_mem_drop h))
    · exact .inr (.inr (List.mem_singleton.1 h))

variable {directory target : TreePath} {outer below : List String} {name fileName : String}

private theorem steps_apart (fileName : String) (htarget : target.segments = outer ++ [name])
    (hapart : ¬target.segments <+: directory.segments) :
    ∃ common ≤ directory.segments.length,
      directory.segments.take common = outer.take common ∧
      steps directory target fileName =
        List.replicate (directory.segments.length - common) up ++ (outer.drop common ++ [fileName]) := by
  have hlt := commonLength_lt hapart
  have htake := take_commonLength directory.segments target.segments
  have hle := (commonLength_le directory.segments target.segments).1
  have hdrop : ∀ n ≤ outer.length, target.segments.drop n = outer.drop n ++ [name] ∧
      target.segments.take n = outer.take n := by
    intro n hn
    rw [htarget, List.drop_append_of_le_length hn, List.take_append_of_le_length hn]
    exact ⟨rfl, rfl⟩
  have hroom : commonLength directory.segments target.segments ≤ outer.length := by
    have hlength : target.segments.length = outer.length + 1 := by simp [htarget]
    omega
  refine ⟨commonLength directory.segments target.segments, hle, ?_, ?_⟩
  · rw [htake, (hdrop _ hroom).2]
  · rw [steps, relative, (hdrop _ hroom).1, ← List.append_assoc, replaceLast_concat, List.append_assoc]
    rfl

private theorem steps_above (habove : directory.segments = target.segments ++ below) :
    steps directory target fileName =
      ModuleTree.replaceLast (List.replicate below.length up) fileName := by
  rw [steps, relative, habove, commonLength_of_prefix, List.drop_length, List.append_nil]
  simp
  rfl

theorem resolve_steps_apart (hdirectory : ∀ c ∈ directory.segments, IsComponent c)
    (htarget : target.segments = outer ++ [name]) (houter : ∀ c ∈ outer, IsComponent c)
    (hfile : IsComponent fileName) (hapart : ¬target.segments <+: directory.segments) :
    resolveFrom directory.segments.reverse (steps directory target fileName) =
      outer ++ [fileName] := by
  obtain ⟨common, hle, htake, hsteps⟩ := steps_apart fileName htarget hapart
  have hinner : directory.segments.reverse.drop (directory.segments.length - common) =
      (outer.take common).reverse := by
    rw [List.drop_reverse, Nat.sub_sub_self hle, htake]
  have hnames : ∀ c ∈ outer.drop common ++ [fileName], IsName c := by
    intro c hc
    rcases List.mem_append.1 hc with hc | hc
    · exact (houter c (List.mem_of_mem_drop hc)).2.2
    · exact List.mem_singleton.1 hc ▸ hfile.2.2
  have hdown := resolveFrom_names hnames (outer.take common).reverse []
  rw [List.append_nil] at hdown
  rw [hsteps, resolveFrom_ups (by simpa using hdirectory) (by simp), hinner, hdown,
    resolveFrom_nil, List.reverse_append, List.reverse_reverse, List.reverse_reverse,
    ← List.append_assoc, List.take_append_drop]

theorem resolve_steps_above (hdirectory : ∀ c ∈ directory.segments, IsComponent c)
    (hfile : IsComponent fileName) (habove : directory.segments = target.segments ++ below) :
    resolveFrom directory.segments.reverse (steps directory target fileName) =
      target.segments ++ (below.head?.map ([·, fileName])).getD [] := by
  rw [steps_above habove]
  cases below with
  | nil => simp [ModuleTree.replaceLast, resolveFrom_nil, habove]
  | cons first rest =>
    have hsteps : ModuleTree.replaceLast (List.replicate (rest.length + 1) up) fileName =
        List.replicate rest.length up ++ [fileName] := by
      rw [List.replicate_succ', replaceLast_concat]
    have hinner : directory.segments.reverse.drop rest.length =
        (target.segments ++ [first]).reverse := by
      rw [habove, List.append_cons, List.reverse_append, List.drop_append_of_le_length (by simp)]
      simp
    rw [List.length_cons, hsteps, resolveFrom_ups (by simpa using hdirectory) (by simp [habove]),
      hinner]
    have hname : ∀ c ∈ [fileName], IsName c := by simpa using hfile.2.2
    have hdown := resolveFrom_names hname (target.segments ++ [first]).reverse []
    rw [List.append_nil] at hdown
    rw [hdown, resolveFrom_nil]
    simp

end TreePath

namespace ModuleTree

variable {t t' : ModuleTree} {id parent : ModuleId} {i j : Nat} {m n : Module}

/-- Trees of directories and files with plain names, whatever their modules hold. -/
inductive Plain : ModuleTree → Prop
  | empty : Plain .empty
  | createModule {t t' : ModuleTree} {name : String} {parent id : ModuleId} {group : Option String}
      (h : Plain t) (hname : IsComponent name) (hnew : t.createModule name parent group = .ok (id, t')) :
      Plain t'
  | createFile {t t' : ModuleTree} {name extension : String} {parent id : ModuleId} (h : Plain t)
      (hname : IsComponent name) (hextension : IsPlain extension)
      (hnew : t.createFile name extension parent = .ok (id, t')) : Plain t'
  | declare {t t' : ModuleTree} {id : ModuleId} {d : Declaration} (h : Plain t)
      (hdeclare : t.declare id d = .ok t') : Plain t'
  | addImport {t t' : ModuleTree} {id : ModuleId} {item : Import} (h : Plain t)
      (himport : t.addImport id item = .ok t') : Plain t'

end ModuleTree

def Module.Above (n m : Module) : Prop := n.path.segments <+: m.path.directory.segments

theorem Module.fileName_eq_iff (m : Module) : m.fileName = m.name ↔ m.extension = none := by
  cases h : m.extension with
  | none => simp [fileName, h]
  | some extension => simp [fileName, h, String.append_assoc]

/-- The place of a module is given by components, of which the last is its name. -/
structure Module.Placed (i : Nat) (m : Module) : Prop where
  segments : ∀ c ∈ m.path.segments, IsComponent c
  name : i ≠ 0 → ∃ outer, m.path.segments = outer ++ [m.name]
  extension : ∀ e ∈ m.extension, IsPlain e

namespace Module.Placed

variable {i : Nat} {m : Module}

theorem enter (h : m.Placed i) {name : String} (hname : IsComponent name) (group : Option String)
    {extension : Option String} (hextension : ∀ e ∈ extension, IsPlain e) (j : Nat) :
    (Module.fresh name (m.path.enter [name]) group extension).Placed j where
  segments := by
    intro c hc
    rcases List.mem_append.1 hc with hc | hc
    · exact h.segments c hc
    · exact List.mem_singleton.1 hc ▸ hname
  name _ := ⟨m.path.segments, rfl⟩
  extension := hextension

theorem isComponent_name (h : m.Placed i) (hi : i ≠ 0) : IsComponent m.name := by
  obtain ⟨outer, houter⟩ := h.name hi
  exact h.segments _ (by simp [houter])

theorem isComponent_fileName (h : m.Placed i) (hi : i ≠ 0) : IsComponent m.fileName := by
  unfold Module.fileName
  split
  · next e he => exact (h.isComponent_name hi).withExtension (h.extension e he)
  · exact h.isComponent_name hi

theorem segments_directory (h : m.Placed i) : ∀ c ∈ m.path.directory.segments, IsComponent c := by
  intro c hc
  apply h.segments
  unfold TreePath.directory TreePath.parent? at hc
  split at hc
  · cases hc
  · exact List.dropLast_subset _ hc

theorem segments_eq (h : m.Placed i) (hi : i ≠ 0) :
    m.path.segments = m.path.directory.segments ++ [m.name] := by
  obtain ⟨outer, houter⟩ := h.name hi
  simp [TreePath.directory, TreePath.parent?, TreePath.isRoot, houter]

theorem components_filePath (h : m.Placed i) (hi : i ≠ 0) :
    components m.filePath = m.path.directory.segments ++ [m.fileName] := by
  have hfile := h.isComponent_fileName hi
  rw [Module.filePath, components_push (head_ne_slash hfile.2.1),
    components_ofComponents h.segments_directory, hfile.pieces_eq]

theorem resolve_filePath (h : m.Placed i) (hi : i ≠ 0) :
    resolve m.filePath = m.path.directory.segments ++ [m.fileName] := by
  apply resolve_of_components (h.components_filePath hi)
  intro c hc
  rcases List.mem_append.1 hc with hc | hc
  · exact h.segments_directory c hc
  · exact List.mem_singleton.1 hc ▸ h.isComponent_fileName hi

theorem isPlain_steps (h : m.Placed i) (hi : i ≠ 0) (directory : TreePath) :
    ∀ c ∈ directory.steps m.path m.fileName, c ≠ "" ∧ IsPlain c := by
  have hfile := h.isComponent_fileName hi
  intro c hc
  rcases TreePath.mem_of_mem_steps hc with rfl | hc | rfl
  · decide
  · exact ⟨(h.segments c hc).1, (h.segments c hc).2.1⟩
  · exact ⟨hfile.1, hfile.2.1⟩

/-- A way that only goes up ends two levels below the module it is for, which is never the place of
its file, or at the module itself, which is the place of a file without an extension. -/
theorem ends_above_iff (h : m.Placed i) (hi : i ≠ 0) (below : List String) :
    m.path.segments ++ (below.head?.map ([·, m.fileName])).getD [] =
        m.path.directory.segments ++ [m.fileName] ↔
      below = [] ∧ m.extension = none := by
  rw [h.segments_eq hi, ← m.fileName_eq_iff]
  cases below with
  | nil => simp [eq_comm]
  | cons first rest => simp

end Module.Placed

namespace ModuleTree

variable {t t' : ModuleTree} {id parent : ModuleId} {i j : Nat} {m n : Module}

def Placed (t : ModuleTree) : Prop := ∀ (i : Nat) (m : Module), t.modules[i]? = some m → m.Placed i

private theorem placed_set (h : t.Placed) (hn : n.Placed j) : (t.set j n).Placed := by
  intro i m hm
  rcases set_cases hm with ⟨rfl, rfl⟩ | hm
  · exact hn
  · exact h i m hm

private theorem placed_attach {name : String} {group extension : Option String} (h : t.Placed)
    (hname : IsComponent name) (hextension : ∀ e ∈ extension, IsPlain e)
    (hnew : t.attach name parent group extension = .ok (id, t')) : t'.Placed := by
  obtain ⟨j, n, -, hn, -, rfl⟩ := attach_cases hnew
  have hplaced := h j n hn
  intro i m hm
  rcases attached_cases hm with ⟨-, rfl⟩ | ⟨rfl, rfl⟩ | hm
  · exact hplaced.enter hname group hextension i
  · exact ⟨hplaced.segments, hplaced.name, hplaced.extension⟩
  · exact h i m hm

theorem Plain.placed (h : t.Plain) : t.Placed := by
  induction h with
  | empty =>
    intro i m hm
    obtain ⟨rfl, rfl⟩ := empty_cases hm
    refine ⟨?_, fun h => absurd rfl h, ?_⟩ <;> simp [Module.root, Module.fresh, TreePath.root]
  | createModule _ hname hnew ih => exact placed_attach ih hname (by simp) hnew
  | createFile _ hname hextension hnew ih =>
    obtain ⟨group, hattach⟩ := createFile_cases hnew
    exact placed_attach ih hname (by simpa using hextension) hattach
  | declare _ hdeclare ih =>
    obtain ⟨j, n, -, hn, rfl⟩ := update_cases hdeclare
    have hplaced := ih j n hn
    exact placed_set ih ⟨hplaced.segments, hplaced.name, hplaced.extension⟩
  | addImport _ himport ih =>
    unfold ModuleTree.addImport at himport
    split at himport
    · cases himport
    · obtain ⟨j, n, -, hn, rfl⟩ := update_cases himport
      have hplaced := ih j n hn
      exact placed_set ih ⟨hplaced.segments, hplaced.name, hplaced.extension⟩

def specifierText (segments : List String) : String :=
  let joined := String.intercalate "/" segments
  if TreePath.parentSegment.toList.isPrefixOf joined.toList then joined else "./" ++ joined

theorem importSpecifier_node (hm : t.modules[i]? = some m) (hn : t.modules[j]? = some n) :
    t.importSpecifier (.node i) (.node j) =
      .ok (specifierText (m.path.directory.steps n.path n.fileName)) := by
  have hnodes : (ModuleId.node i = .detached || ModuleId.node j = .detached) = false := by simp
  simp only [importSpecifier, relativePath, hnodes, get_node hm, get_node hn]
  rfl

private theorem head_specifierText (segments : List String) :
    (specifierText segments).toList.head? = some '.' := by
  unfold specifierText
  simp only
  split
  · next h =>
    obtain ⟨rest, hrest⟩ := List.isPrefixOf_iff_prefix.1 h
    rw [← hrest]
    rfl
  · simp

private theorem resolveFrom_specifierText {segments : List String}
    (h : ∀ c ∈ segments, c ≠ "" ∧ IsPlain c) (inner : List String) :
    resolveFrom inner (pieces (specifierText segments)) = resolveFrom inner segments := by
  unfold specifierText
  simp only
  split
  · rw [pieces_intercalate h]
  · have hpieces := pieces_slash here (String.intercalate "/" segments)
    rw [pieces_intercalate h] at hpieces
    change resolveFrom inner (pieces (here ++ "/" ++ _)) = _
    rw [hpieces]
    rfl

theorem resolve_push_specifierText {directory segments : List String}
    (hdirectory : ∀ c ∈ directory, IsComponent c) (h : ∀ c ∈ segments, c ≠ "" ∧ IsPlain c) :
    resolve (push (ofComponents directory) (specifierText segments)) =
      resolveFrom directory.reverse segments := by
  have hhead : (specifierText segments).toList.head? ≠ some '/' := by
    rw [head_specifierText]
    simp
  rw [resolve, components_push hhead, components_ofComponents hdirectory,
    resolveFrom_names fun c hc => (hdirectory c hc).2.2, List.append_nil, resolveFrom_specifierText h]

/-- In a tree of plain names, a specifier followed from the directory of the importing file leads to
the file of the imported module. Of the modules above it reaches only the directory of the importing
file itself, and that one only without an extension. -/
theorem Plain.importSpecifier_resolves_iff (h : t.Plain) (hm : t.modules[i]? = some m)
    (hn : t.modules[j]? = some n) (hi : i ≠ 0) (hj : j ≠ 0) :
    Succeeds (t.importSpecifier (.node i) (.node j)) fun specifier =>
      ∃ directory, parent? m.filePath = some directory ∧
        (resolve (push directory specifier) = resolve n.filePath ↔
          (n.Above m → n.path = m.path.directory ∧ n.extension = none)) := by
  have hsource := h.placed i m hm
  have htarget := h.placed j n hn
  have hfile := htarget.isComponent_fileName hj
  have hdirectory := hsource.segments_directory
  refine ⟨_, importSpecifier_node hm hn, ofComponents m.path.directory.segments,
    parent?_eq (hsource.components_filePath hi) hdirectory (hsource.isComponent_fileName hi), ?_⟩
  rw [resolve_push_specifierText hdirectory (htarget.isPlain_steps hj _), htarget.resolve_filePath hj]
  by_cases hprefix : n.path.segments <+: m.path.directory.segments
  · obtain ⟨below, hbelow⟩ := hprefix
    have hsame : n.path = m.path.directory ↔ below = [] := by
      constructor
      · intro heq
        rw [heq] at hbelow
        simpa using hbelow
      · rintro rfl
        have hsegments : n.path.segments = m.path.directory.segments := by simpa using hbelow
        exact congrArg TreePath.mk hsegments
    rw [TreePath.resolve_steps_above hdirectory hfile hbelow.symm, htarget.ends_above_iff hj, ← hsame]
    exact ⟨fun h _ => h, fun h => h ⟨below, hbelow⟩⟩
  · have hapart := TreePath.resolve_steps_apart hdirectory (htarget.segments_eq hj)
      htarget.segments_directory hfile hprefix
    exact ⟨fun _ habove => absurd habove hprefix, fun _ => hapart⟩

def petTree : Except Fault ModuleTree := do
  let (pets, t) ← ModuleTree.empty.createFile "Pets" "http" root
  let (models, t) ← t.createModule "models" pets none
  let (_, t) ← t.createFile "Pet" "jsonc" models
  let (_, t) ← t.createFile "Owners" "http" root
  return t

private theorem petTree_plain : ∃ t, petTree = .ok t ∧ t.Plain := by
  have h₁ := @Plain.createFile _ _ "Pets" "http" root _ .empty (by decide) (by decide) rfl
  have h₂ := @Plain.createModule _ _ "models" (.node 1) _ none h₁ (by decide) rfl
  have h₃ := @Plain.createFile _ _ "Pet" "jsonc" (.node 2) _ h₂ (by decide) (by decide) rfl
  have h₄ := @Plain.createFile _ _ "Owners" "http" root _ h₃ (by decide) (by decide) rfl
  exact ⟨_, rfl, h₄⟩

theorem petTree_specifier_iff : ∃ (t : ModuleTree) (m n : Module),
    t.Plain ∧ t.modules[3]? = some m ∧ t.modules[4]? = some n ∧
    Succeeds (t.importSpecifier (.node 3) (.node 4)) fun specifier =>
      ∃ directory, parent? m.filePath = some directory ∧
        (resolve (push directory specifier) = resolve n.filePath ↔
          (n.Above m → n.path = m.path.directory ∧ n.extension = none)) := by
  obtain ⟨t, ht, hplain⟩ := petTree_plain
  cases ht
  exact ⟨_, _, _, hplain, rfl, rfl,
    hplain.importSpecifier_resolves_iff rfl rfl (by decide) (by decide)⟩

/-- From a folder to the document above it: the specifier leads to a file beside the folder's own. -/
theorem petTree_specifier_astray : ∃ (t : ModuleTree) (m n : Module) (directory : String),
    t.Plain ∧ t.modules[3]? = some m ∧ t.modules[1]? = some n ∧
    t.importSpecifier (.node 3) (.node 1) = .ok "./Pets.http" ∧
    parent? m.filePath = some directory ∧
    resolve (push directory "./Pets.http") ≠ resolve n.filePath := by
  obtain ⟨t, ht, hplain⟩ := petTree_plain
  cases ht
  exact ⟨_, _, _, "Pets/models", hplain, rfl, rfl, by decide +kernel, by decide +kernel,
    by decide +kernel⟩

end ModuleTree

end RequestDocs
