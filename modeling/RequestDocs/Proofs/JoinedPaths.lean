import RequestDocs.Proofs.FilePaths
/-!
# Joined paths

The components of paths that are put together from names, and where such paths lead.
-/

namespace RequestDocs.FilePath

open Text

def IsComponent (s : String) : Prop := s ≠ "" ∧ IsPlain s ∧ IsName s

instance (s : String) : Decidable (IsComponent s) := inferInstanceAs (Decidable (_ ∧ _ ∧ _))

namespace IsComponent

variable {s : String}

theorem pieces_eq (h : IsComponent s) : pieces s = [s] := pieces_plain h.2.1 h.1

theorem ne_root (h : IsComponent s) : s ≠ root := by
  intro heq
  exact h.2.1 '/' (by rw [heq]; decide) rfl

theorem withExtension (h : IsComponent s) {extension : String} (he : IsPlain extension) :
    IsComponent (s ++ "." ++ extension) := by
  obtain ⟨hne, hplain, hhere, hup⟩ := h
  have hlist : (s ++ "." ++ extension).toList = s.toList ++ '.' :: extension.toList := by simp
  refine ⟨by simp, (hplain.append (by decide)).append he, ?_, ?_⟩
  · intro heq
    rw [← String.toList_inj, hlist] at heq
    obtain ⟨c, cs, hs⟩ := List.exists_cons_of_ne_nil fun h => hne (String.toList_eq_nil_iff.1 h)
    simp [hs, here] at heq
  · -- Two dots would leave a single one for the name.
    intro heq
    rw [← String.toList_inj, hlist] at heq
    obtain ⟨c, cs, hs⟩ := List.exists_cons_of_ne_nil fun h => hne (String.toList_eq_nil_iff.1 h)
    cases cs with
    | nil =>
      obtain ⟨hc, -⟩ : c = '.' ∧ extension = "" := by simpa [hs, up] using heq
      apply hhere
      rw [← String.toList_inj, hs, hc]
      rfl
    | cons d ds => simp [hs, up] at heq

end IsComponent

theorem components_of_head {path : String} (h : path.toList.head? ≠ some '/') :
    components path = pieces path := if_neg h

theorem components_append {path text : String} (hne : path ≠ "") (names : List String)
    (h : pieces (path ++ text) = pieces path ++ names) :
    components (path ++ text) = components path ++ names := by
  have hhead : (path ++ text).toList.head? = path.toList.head? := by
    rw [String.toList_append, List.head?_append_of_ne_nil]
    simpa using hne
  unfold pieces at h
  simp only [components, hhead, h]
  split
  · rfl
  · rfl

theorem components_push {component : String} (h : component.toList.head? ≠ some '/')
    (path : String) : components (push path component) = components path ++ pieces component := by
  unfold push
  rw [if_neg h]
  by_cases hempty : path = ""
  · subst hempty
    exact components_of_head h
  · by_cases hlast : path.toList.getLast? = some '/'
    · have hjoin : (path.isEmpty || decide (path.toList.getLast? = some '/')) = true := by simp [hlast]
      rw [if_pos hjoin]
      apply components_append hempty
      obtain ⟨front, hfront⟩ := List.getLast?_eq_some_iff.1 hlast
      have hpath : path = String.ofList front ++ "/" ++ "" := by
        rw [← String.ofList_toList (s := path), hfront]
        simp
      have htext : path ++ component = String.ofList front ++ "/" ++ component := by
        rw [hpath]
        simp
      rw [htext, hpath, pieces_slash, pieces_slash]
      have hnone : pieces "" = [] := rfl
      rw [hnone, List.append_nil]
    · have hjoin : (path.isEmpty || decide (path.toList.getLast? = some '/')) = false := by
        simp [hlast, hempty]
      rw [hjoin, if_neg (by simp), String.append_assoc]
      apply components_append hempty
      rw [← String.append_assoc]
      exact pieces_slash path component

theorem components_ofComponents {names : List String} (h : ∀ c ∈ names, IsComponent c) :
    components (ofComponents names) = names := by
  have hfold (path : String) : components (names.foldl push path) = components path ++ names := by
    induction names generalizing path with
    | nil => simp
    | cons c cs ih =>
      obtain ⟨hc, hcs⟩ := List.forall_mem_cons.1 h
      rw [List.foldl_cons, ih hcs, components_push (head_ne_slash hc.2.1), hc.pieces_eq]
      simp
  exact hfold ""

theorem pieces_intercalate {segments : List String} (h : ∀ c ∈ segments, c ≠ "" ∧ IsPlain c) :
    pieces (String.intercalate "/" segments) = segments := by
  induction segments with
  | nil => rfl
  | cons c cs ih =>
    obtain ⟨⟨hne, hplain⟩, hcs⟩ := List.forall_mem_cons.1 h
    by_cases hnil : cs = []
    · rw [hnil, String.intercalate_singleton, pieces_plain hplain hne]
    · rw [String.intercalate_cons_of_ne_nil hnil, pieces_slash, pieces_plain hplain hne, ih hcs]
      rfl

theorem resolveFrom_names {names : List String} (h : ∀ c ∈ names, IsName c) (inner rest : List String) :
    resolveFrom inner (names ++ rest) = resolveFrom (names.reverse ++ inner) rest := by
  induction names generalizing inner with
  | nil => rfl
  | cons c cs ih =>
    obtain ⟨hc, hcs⟩ := List.forall_mem_cons.1 h
    rw [List.cons_append, resolveFrom, if_neg hc.1, if_neg hc.2, ih hcs]
    simp

theorem resolveFrom_ups {inner : List String} (h : ∀ c ∈ inner, IsComponent c) {count : Nat}
    (hcount : count ≤ inner.length) (rest : List String) :
    resolveFrom inner (List.replicate count up ++ rest) = resolveFrom (inner.drop count) rest := by
  induction count generalizing inner with
  | zero => rfl
  | succ count ih =>
    cases inner with
    | nil => simp at hcount
    | cons c cs =>
      obtain ⟨hc, hcs⟩ := List.forall_mem_cons.1 h
      have hclimb : climb (c :: cs) = cs := by simp [climb, hc.2.2.2, hc.ne_root]
      rw [List.replicate_succ, List.cons_append, resolveFrom, if_neg (by decide), if_pos rfl, hclimb,
        ih hcs (by simpa using hcount)]
      rfl

theorem resolveFrom_nil (inner : List String) : resolveFrom inner [] = inner.reverse := rfl

theorem resolve_of_components {path : String} {names : List String} (hpath : components path = names)
    (hnames : ∀ c ∈ names, IsComponent c) : resolve path = names := by
  have h := resolveFrom_names (fun c hc => (hnames c hc).2.2) [] []
  simp only [List.append_nil] at h
  rw [resolve, hpath, h, resolveFrom, List.reverse_reverse]

theorem parent?_eq {path name : String} {directory : List String}
    (hpath : components path = directory ++ [name]) (hdirectory : ∀ c ∈ directory, IsComponent c)
    (hname : IsComponent name) : parent? path = some (ofComponents directory) := by
  have hall : ∀ c ∈ directory ++ [name], IsComponent c := by
    intro c hc
    rcases List.mem_append.1 hc with hc | hc
    · exact hdirectory c hc
    · exact List.mem_singleton.1 hc ▸ hname
  have hnormal : normalize (directory ++ [name]) = directory ++ [name] := by
    cases hcs : directory ++ [name] with
    | nil => rfl
    | cons first rest =>
      rw [hcs] at hall
      rw [normalize, List.filter_eq_self.2]
      intro c hc
      simpa using (hall c (List.mem_cons_of_mem first hc)).2.2.1
  have hroot : directory ++ [name] ≠ [root] := by
    intro heq
    have hmem : root ∈ directory ++ [name] := by simp [heq]
    exact (hall root hmem).ne_root rfl
  unfold parent?
  rw [hpath, hnormal]
  split
  · next hnil => simp at hnil
  · rw [if_neg hroot, List.dropLast_concat]

end RequestDocs.FilePath
