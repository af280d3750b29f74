import RequestDocs.FilePath
import RequestDocs.Proofs.Identifiers
/-!
# Paths that stay in a folder

A path with its components `.` and `..` taken for what they stand for. Below a folder it stays in it
while no component climbs further than those before it have gone down.
-/

namespace RequestDocs

namespace Text

variable {p : Char → Bool}

theorem splitWhere_append_left {as bs part : List Char} {parts : List (List Char)}
    (h : ∀ c ∈ as, p c = false) (hbs : splitWhere p bs = part :: parts) :
    splitWhere p (as ++ bs) = (as ++ part) :: parts := by
  induction as with
  | nil => exact hbs
  | cons a as ih =>
    obtain ⟨ha, has⟩ := List.forall_mem_cons.1 h
    simp [splitWhere, ha, ih has]

theorem splitWhere_append_right {as bs part : List Char} {parts : List (List Char)}
    (h : ∀ c ∈ bs, p c = false) (has : splitWhere p as = parts ++ [part]) :
    splitWhere p (as ++ bs) = parts ++ [part ++ bs] := by
  induction as generalizing part parts with
  | nil =>
    obtain ⟨rfl, rfl⟩ : parts = [] ∧ part = [] := by
      cases parts with
      | nil => simpa [splitWhere] using has.symm
      | cons => simp [splitWhere] at has
    exact splitWhere_eq_singleton h
  | cons a as ih =>
    simp only [splitWhere] at has
    rw [List.cons_append, splitWhere]
    split at has
    · next ha =>
      rw [if_pos ha]
      cases parts with
      | nil => simp [splitWhere_ne_nil] at has
      | cons first parts =>
        obtain ⟨rfl, hrest⟩ : [] = first ∧ splitWhere p as = parts ++ [part] := by simpa using has
        rw [ih hrest, List.cons_append]
    · next ha =>
      rw [if_neg ha]
      cases hs : splitWhere p as with
      | nil => exact absurd hs (splitWhere_ne_nil p as)
      | cons first rest =>
        rw [hs] at has
        cases parts with
        | nil =>
          obtain ⟨rfl, rfl⟩ : a :: first = part ∧ rest = [] := by simpa using has
          have hwhole := ih (show splitWhere p as = [] ++ [first] from hs)
          simp [hwhole]
        | cons q parts =>
          obtain ⟨rfl, rfl⟩ : a :: first = q ∧ rest = parts ++ [part] := by simpa using has
          have hwhole := ih (show splitWhere p as = (first :: parts) ++ [part] from hs)
          simp [hwhole]

end Text

namespace FilePath

open Text

/-- The directory above one, each given by its names with the innermost first. Above where a path
starts is written `..`, and the root of the file system has none above. -/
def climb : List String → List String
  | [] => [up]
  | name :: outer =>
    if name = up then up :: name :: outer else if name = root then name :: outer else outer

def resolveFrom (inner : List String) : List String → List String
  | [] => inner.reverse
  | c :: cs =>
    if c = here then resolveFrom inner cs
    else if c = up then resolveFrom (climb inner) cs
    else resolveFrom (c :: inner) cs

/-- The components of a path once `.` and `..` are taken for what they stand for. -/
def resolve (path : String) : List String := resolveFrom [] (components path)

/-- Whether components lead to a place below a directory, from the given depth below it, without
climbing out of it on the way. -/
def stays : (depth : Nat) → List String → Bool
  | _, [] => true
  | depth, c :: cs =>
    if c = here then stays depth cs
    else if c = up then
      match depth with
      | 0 => false
      | depth + 1 => stays depth cs
    else stays (depth + 1) cs

def IsName (c : String) : Prop := c ≠ here ∧ c ≠ up

instance (c : String) : Decidable (IsName c) := inferInstanceAs (Decidable (_ ∧ _))

theorem stays_cons {c : String} (hc : IsName c) (depth : Nat) (cs : List String) :
    stays depth (c :: cs) = stays (depth + 1) cs := by
  simp [stays, hc.1, hc.2]

theorem stays_append_name {c : String} (hc : IsName c) (depth : Nat) (cs : List String) :
    stays depth (cs ++ [c]) = stays depth cs := by
  induction cs generalizing depth with
  | nil => simp [stays_cons hc, stays]
  | cons d ds ih =>
    rw [List.cons_append]
    unfold stays
    simp only [ih]

theorem head_resolveFrom {folder : String} {inner cs : List String}
    (hinner : ∀ c ∈ inner, c ≠ up ∧ c ≠ root) (hcs : ∀ c ∈ cs, c ≠ root)
    (h : stays inner.length cs = true) :
    (resolveFrom (inner ++ [folder]) cs).head? = some folder := by
  -- `inner` are the names gone down below the folder; a step up takes off the last of them.
  induction cs generalizing inner with
  | nil => simp [resolveFrom]
  | cons c cs ih =>
    obtain ⟨hc, hcs⟩ := List.forall_mem_cons.1 hcs
    unfold resolveFrom
    unfold stays at h
    by_cases hhere : c = here
    · rw [if_pos hhere] at h ⊢
      exact ih hinner hcs h
    rw [if_neg hhere] at h ⊢
    by_cases hup : c = up
    · rw [if_pos hup] at h ⊢
      cases inner with
      | nil => simp at h
      | cons name outer =>
        obtain ⟨⟨hname, hroot⟩, houter⟩ := List.forall_mem_cons.1 hinner
        have hclimb : climb (name :: outer ++ [folder]) = outer ++ [folder] := by
          simp [climb, hname, hroot]
        rw [hclimb]
        exact ih houter hcs h
    · rw [if_neg hup] at h ⊢
      have hinner' : ∀ d ∈ c :: inner, d ≠ up ∧ d ≠ root :=
        List.forall_mem_cons.2 ⟨⟨hup, hc⟩, hinner⟩
      exact ih hinner' hcs h

def pieces (path : String) : List String := (split '/' path).filter (!·.isEmpty)

theorem ne_root_of_mem_pieces {path c : String} (h : c ∈ pieces path) : c ≠ root := by
  obtain ⟨hc, -⟩ := List.mem_filter.1 h
  obtain ⟨part, hpart, rfl⟩ := List.mem_map.1 hc
  intro hroot
  have hslash : '/' ∈ part := by
    rw [← String.toList_ofList (l := part), hroot]
    decide
  simpa using of_mem_splitWhere hpart hslash

def IsPlain (s : String) : Prop := ∀ c ∈ s.toList, c ≠ '/'

instance (s : String) : Decidable (IsPlain s) := List.decidableBAll _ s.toList

theorem IsPlain.append {s t : String} (hs : IsPlain s) (ht : IsPlain t) : IsPlain (s ++ t) := by
  intro c hc
  rw [String.toList_append, List.mem_append] at hc
  exact hc.elim (hs c) (ht c)

private theorem IsPlain.not_slash {s : String} (hs : IsPlain s) :
    ∀ c ∈ s.toList, (c == '/') = false :=
  fun c hc => beq_eq_false_iff_ne.2 (hs c hc)

theorem isPlain_of_isIdentifier {s : String} (hs : IsIdentifier s) : IsPlain s := by
  intro c hc
  rintro rfl
  exact absurd (hs '/' hc) (by decide)

theorem isName_of_mem {s : String} {c : Char} (h : c ∈ s.toList) (hc : c ≠ '.') : IsName s := by
  constructor
  · rintro rfl
    simp [here, hc] at h
  · rintro rfl
    simp [up, hc] at h

theorem isName_of_isIdentifier {s : String} (hs : IsIdentifier s) (hne : s ≠ "") : IsName s := by
  obtain ⟨c, cs, hlist⟩ := List.exists_cons_of_ne_nil fun h => hne (String.toList_eq_nil_iff.1 h)
  have hmem : c ∈ s.toList := by simp [hlist]
  refine isName_of_mem hmem ?_
  rintro rfl
  exact absurd (hs '.' hmem) (by decide)

theorem push_eq {path component : String} (hne : path ≠ "") (hlast : path.toList.getLast? ≠ some '/')
    (hhead : component.toList.head? ≠ some '/') : push path component = path ++ "/" ++ component := by
  unfold push
  rw [if_neg hhead, if_neg]
  rw [Bool.or_eq_true, decide_eq_true_eq]
  rintro (hempty | hslash)
  · exact hne (String.isEmpty_iff.1 hempty)
  · exact hlast hslash

theorem head_ne_slash {s : String} (hs : IsPlain s) : s.toList.head? ≠ some '/' :=
  fun h => hs '/' (List.mem_of_mem_head? h) rfl

theorem getLast_ne_slash {s : String} (hs : IsPlain s) : s.toList.getLast? ≠ some '/' :=
  fun h => hs '/' (List.mem_of_mem_getLast? h) rfl

theorem pieces_plain {s : String} (hplain : IsPlain s) (hne : s ≠ "") : pieces s = [s] := by
  have hsplit : splitOn '/' s.toList = [s.toList] := splitWhere_eq_singleton hplain.not_slash
  simp [pieces, split, hsplit, hne]

theorem pieces_slash (a b : String) : pieces (a ++ "/" ++ b) = pieces a ++ pieces b := by
  have hlist : (a ++ "/" ++ b).toList = a.toList ++ '/' :: b.toList := by simp
  have hsplit : splitOn '/' (a ++ "/" ++ b).toList = splitOn '/' a.toList ++ splitOn '/' b.toList := by
    rw [hlist]
    exact splitWhere_append_cons (by decide) _ _
  rw [pieces, split, hsplit, List.map_append, List.filter_append]
  rfl

theorem pieces_below {folder : String} (hplain : IsPlain folder) (hne : folder ≠ "")
    (rest : String) : pieces (folder ++ "/" ++ rest) = folder :: pieces rest := by
  rw [pieces_slash, pieces_plain hplain hne]
  rfl

theorem components_below {folder : String} (hplain : IsPlain folder) (hne : folder ≠ "")
    (rest : String) : components (folder ++ "/" ++ rest) = folder :: pieces rest := by
  have hstart : (folder ++ "/" ++ rest).toList.head? ≠ some '/' := by
    have hlist : (folder ++ "/" ++ rest).toList = folder.toList ++ '/' :: rest.toList := by simp
    rw [hlist, List.head?_append]
    cases hfolder : folder.toList with
    | nil => exact absurd (String.toList_eq_nil_iff.1 hfolder) hne
    | cons c cs =>
      rintro ⟨⟩
      exact hplain '/' (by simp [hfolder]) rfl
  have hpieces := pieces_below hplain hne rest
  unfold pieces at hpieces
  simp only [components, hpieces]
  rw [if_neg hstart]
  rfl

/-- A path that goes on below a folder without climbing out of it leads to a place in the folder. -/
theorem resolve_below {folder : String} (hplain : IsPlain folder) (hne : folder ≠ "")
    (hname : IsName folder) {rest : String} (h : stays 0 (pieces rest) = true) :
    (resolve (folder ++ "/" ++ rest)).head? = some folder := by
  rw [resolve, components_below hplain hne]
  have hfirst : resolveFrom [] (folder :: pieces rest) = resolveFrom [folder] (pieces rest) := by
    rw [resolveFrom, if_neg hname.1, if_neg hname.2]
  rw [hfirst]
  change (resolveFrom ([] ++ [folder]) (pieces rest)).head? = some folder
  exact head_resolveFrom (by simp) (fun c => ne_root_of_mem_pieces) h

/-- The pieces of a text after its first slash and before its last. -/
def innerPieces (s : String) : List String := ((split '/' s).tail.dropLast).filter (!·.isEmpty)

private theorem isName_of_underscore {cs : List Char} (h : '_' ∈ cs) :
    IsName (String.ofList cs) ∧ (String.ofList cs).isEmpty = false := by
  have hmem : '_' ∈ (String.ofList cs).toList := by simpa using h
  refine ⟨isName_of_mem hmem (by decide), ?_⟩
  rw [String.isEmpty_eq_false_iff]
  intro heq
  simp [heq] at hmem

theorem stays_joined {front back : String} (hfront : IsPlain front) (hback : IsPlain back)
    (hfront' : '_' ∈ front.toList) (hback' : '_' ∈ back.toList) {text : String}
    (h : stays 1 (innerPieces text) = true) : stays 0 (pieces (front ++ text ++ back)) = true := by
  cases hsplit : splitOn '/' text.toList with
  | nil => exact absurd hsplit (splitWhere_ne_nil _ _)
  | cons first tail =>
    -- The parts at both ends are names, as they hold the underscores of what they are joined to.
    have hleft := splitWhere_append_left hfront.not_slash hsplit
    have hnames (cs cs' : List Char) : IsName (String.ofList (front.toList ++ cs)) ∧
        IsName (String.ofList (cs' ++ back.toList)) ∧
        (String.ofList (front.toList ++ cs)).isEmpty = false ∧
        (String.ofList (cs' ++ back.toList)).isEmpty = false := by
      obtain ⟨hname, hempty⟩ := isName_of_underscore (List.mem_append_left cs hfront')
      obtain ⟨hname', hempty'⟩ := isName_of_underscore (List.mem_append_right cs' hback')
      exact ⟨hname, hname', hempty, hempty'⟩
    rcases List.eq_nil_or_concat tail with rfl | ⟨mid, last, rfl⟩
    · -- There is no slash, so the whole is one name.
      have hwhole : splitOn '/' (front ++ text ++ back).toList =
          [front.toList ++ first ++ back.toList] := by
        rw [String.toList_append, String.toList_append]
        exact splitWhere_append_right hback.not_slash
          (show _ = [] ++ [front.toList ++ first] from hleft)
      obtain ⟨-, hname, -, hempty⟩ := hnames [] (front.toList ++ first)
      simp only [pieces, split, hwhole, List.map_cons, List.map_nil]
      rw [List.filter_cons_of_pos (by simpa using hempty), List.filter_nil, stays_cons hname]
      rfl
    · rw [List.concat_eq_append] at hsplit hleft
      have hwhole : splitOn '/' (front ++ text ++ back).toList =
          (front.toList ++ first) :: mid ++ [last ++ back.toList] := by
        rw [String.toList_append, String.toList_append]
        exact splitWhere_append_right hback.not_slash hleft
      have hinner : innerPieces text = (mid.map String.ofList).filter (!·.isEmpty) := by
        simp [innerPieces, split, hsplit]
      obtain ⟨hname, hname', hempty, hempty'⟩ := hnames first last
      have hpieces : pieces (front ++ text ++ back) =
          String.ofList (front.toList ++ first) ::
            (innerPieces text ++ [String.ofList (last ++ back.toList)]) := by
        simp only [pieces, split, hwhole, hinner, List.map_append, List.map_cons, List.map_nil,
          List.filter_append, List.filter_cons, List.filter_nil, hempty, hempty', Bool.not_false,
          if_true, List.cons_append]
      rw [hpieces, stays_cons hname, stays_append_name hname']
      exact h

end FilePath

end RequestDocs
