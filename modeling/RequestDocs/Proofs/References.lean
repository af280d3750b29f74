import RequestDocs.Proofs.Shapes
/-!
# Where references lead

Following references meets no fault but a text without the form of a reference, and ends in the
table of components.
-/

namespace RequestDocs.OpenApi

def MalformedIn (texts : List String) (f : Fault) : Prop :=
  ∃ text ∈ texts, Reference.parse? text = none ∧ f = .malformedReference text

theorem MalformedIn.mono {texts texts' : List String} {f : Fault} (h : MalformedIn texts f)
    (hsub : texts ⊆ texts') : MalformedIn texts' f := by
  obtain ⟨text, hmem, hf⟩ := h
  exact ⟨text, hsub hmem, hf⟩

namespace Reference

theorem parse_error {path : String} {f : Fault} (h : parse path = .error f) :
    MalformedIn [path] f := by
  unfold parse at h
  split at h
  · cases h
  · next hnone =>
    cases h
    exact ⟨path, List.mem_singleton_self path, hnone, rfl⟩

theorem parse_ok {path : String} {reference : Reference} (h : parse path = .ok reference) :
    parse? path = some reference := by
  unfold parse at h
  split at h
  · next hsome =>
    cases h
    exact hsome
  · cases h

theorem localName_error {path : String} {f : Fault} (h : localName? path = .error f) :
    MalformedIn [path] f := by
  unfold localName? at h
  split at h
  · cases hp : parse path with
    | error f' =>
      rw [hp] at h
      cases h
      exact parse_error hp
    | ok reference =>
      rw [hp] at h
      cases h
  · cases h

theorem parse_of_localName {path name : String} (h : localName? path = .ok (some name)) :
    ∃ reference, parse path = .ok reference ∧ reference.name = name := by
  unfold localName? at h
  split at h
  · cases hp : parse path with
    | error f =>
      rw [hp] at h
      cases h
    | ok reference =>
      rw [hp] at h
      simp only [bind, Except.bind, pure, Except.pure, Except.ok.injEq] at h
      split at h
      · exact ⟨reference, rfl, Option.some.inj h⟩
      · cases h
  · cases h

private theorem eq_append_of_dropLead {lead cs rest : List Char} (h : dropLead? lead cs = some rest) :
    cs = lead ++ rest := by
  induction lead generalizing cs with
  | nil => exact Option.some.inj h
  | cons l lead ih =>
    cases cs with
    | nil => cases h
    | cons c cs =>
      rw [dropLead?] at h
      split at h
      · next heq => rw [heq, ih h, List.cons_append]
      · cases h

theorem toList_of_localName {path name : String} (h : localName? path = .ok (some name)) :
    ∃ reference, parse? path = some reference ∧
      path.toList = componentsPath ++ reference.kind.toList ++ '/' :: name.toList := by
  obtain ⟨reference, hparse, hname⟩ := parse_of_localName h
  have hparse := parse_ok hparse
  refine ⟨reference, hparse, ?_⟩
  have hstart : path.toList.dropWhile (· != '#') = path.toList := by
    unfold localName? at h
    split at h
    · next hlead =>
      obtain ⟨rest, hrest⟩ := List.isPrefixOf_iff_prefix.1 hlead
      rw [← hrest]
      rfl
    · cases h
  unfold parse? at hparse
  rw [hstart] at hparse
  cases hrest : dropLead? componentsPath path.toList with
  | none =>
    rw [hrest] at hparse
    cases hparse
  | some rest =>
    rw [hrest] at hparse
    simp only [Option.bind_eq_bind, Option.bind_some] at hparse
    split at hparse
    · cases hparse
    · next slash text heq =>
      split at hparse
      · cases hparse
      · cases hparse
        have hall := List.takeWhile_append_dropWhile (p := (· != '/')) (l := rest)
        have hdrop : rest.dropWhile (· != '/') = slash :: text := by
          have hsplit := congrArg (List.drop (rest.takeWhile (· != '/')).length) hall
          rw [List.drop_left, heq] at hsplit
          exact hsplit
        have hslash : slash = '/' := by
          have hhead := List.head?_dropWhile_not (· != '/') rest
          simpa [hdrop] using hhead
        rw [hdrop, hslash] at hall
        rw [eq_append_of_dropLead hrest, ← hname]
        simp [hall]

/-- The text spells a schema, if it has the form of a reference. -/
def PointsToSchema (path : String) : Prop :=
  ∀ reference, parse? path = some reference → reference.kind = "schemas"

theorem PointsToSchema.unique {path path' name : String} (h : PointsToSchema path)
    (h' : PointsToSchema path') (hname : localName? path = .ok (some name))
    (hname' : localName? path' = .ok (some name)) : path = path' := by
  obtain ⟨reference, hparse, htext⟩ := toList_of_localName hname
  obtain ⟨reference', hparse', htext'⟩ := toList_of_localName hname'
  rw [h reference hparse] at htext
  rw [h' reference' hparse'] at htext'
  exact String.toList_injective (htext.trans htext'.symm)

end Reference

section

variable {α : Type} {kind : String} {path? : α → Option String} {table : List (String × α)}
  {fuel : Nat} {value : α}

theorem resolveIn_error {f : Fault} (h : resolveIn kind path? table fuel value = .error f) :
    MalformedIn ((path? value).toList ++ table.flatMap fun entry => (path? entry.2).toList) f := by
  induction fuel generalizing value with
  | zero => cases h
  | succ fuel ih =>
    unfold resolveIn at h
    split at h
    · cases h
    · next path hpath =>
      rw [hpath]
      cases hp : Reference.parse path with
      | error f' =>
        rw [hp] at h
        cases h
        exact (Reference.parse_error hp).mono (by simp)
      | ok reference =>
        simp only [hp, bind, Except.bind] at h
        split at h
        · split at h
          · next target hlookup =>
            refine (ih h).mono (List.append_subset.2 ⟨?_, List.subset_append_right _ _⟩)
            obtain ⟨before, after, heq, _⟩ := List.lookup_eq_some_iff.1 hlookup
            intro text htext
            refine List.mem_append_right _ (List.mem_flatMap.2 ⟨(reference.name, target), ?_, htext⟩)
            simp [heq]
          · cases h
        · cases h

theorem resolveIn_ok {target : α} (h : resolveIn kind path? table fuel value = .ok (some target)) :
    path? target = none ∧ (target = value ∨ ∃ entry ∈ table, target = entry.2) := by
  induction fuel generalizing value with
  | zero => cases h
  | succ fuel ih =>
    unfold resolveIn at h
    split at h
    · next hnone =>
      cases h
      exact ⟨hnone, .inl rfl⟩
    · next path hpath =>
      cases hp : Reference.parse path with
      | error f' =>
        rw [hp] at h
        cases h
      | ok reference =>
        simp only [hp, bind, Except.bind] at h
        split at h
        · split at h
          · next next hlookup =>
            obtain ⟨before, after, heq, _⟩ := List.lookup_eq_some_iff.1 hlookup
            obtain ⟨hnone, htarget⟩ := ih h
            refine ⟨hnone, .inr ?_⟩
            rcases htarget with rfl | htarget
            · exact ⟨(reference.name, target), by simp [heq], rfl⟩
            · exact htarget
          · cases h
        · cases h

end

namespace ApiComponents

variable {c : ApiComponents} {schema target : Schema}

private theorem path_mem_references {schema : Schema} {text : String}
    (h : text ∈ schema.path?.toList) : text ∈ schema.references := by
  cases schema with
  | reference path => simpa [Schema.path?, Schema.references] using h
  | object => simp [Schema.path?] at h

theorem resolveSchema_error {f : Fault} (h : c.resolveSchema schema = .error f) :
    MalformedIn (schema.references ++ c.schemaReferences) f := by
  refine (resolveIn_error h).mono fun text htext => ?_
  rcases List.mem_append.1 htext with htext | htext
  · exact List.mem_append_left _ (path_mem_references htext)
  · obtain ⟨entry, hentry, htext⟩ := List.mem_flatMap.1 htext
    exact List.mem_append_right _ (List.mem_flatMap.2 ⟨entry, hentry, path_mem_references htext⟩)

theorem references_of_resolveSchema {path : String}
    (h : c.resolveSchema (.reference path) = .ok (some target)) :
    target.references ⊆ c.schemaReferences := by
  obtain ⟨hnone, rfl | ⟨entry, hentry, rfl⟩⟩ := resolveIn_ok h
  · cases hnone
  · exact fun text htext => List.mem_flatMap.2 ⟨entry, hentry, htext⟩

theorem resolveSchema_reference {path : String} {reference : Reference}
    (hparse : Reference.parse path = .ok reference) : c.resolveSchema (.reference path) =
      if reference.kind = "schemas" then
        match c.schemas.lookup reference.name with
        | some schema => resolveIn "schemas" Schema.path? c.schemas c.schemas.length schema
        | none => .ok none
      else .ok none := by
  simp only [resolveSchema, resolveIn, Schema.path?, hparse, bind, Except.bind, pure, Except.pure]
  cases c.schemas.lookup reference.name <;> rfl

theorem lookup_of_resolveSchema {path name : String}
    (hname : Reference.localName? path = .ok (some name))
    (h : c.resolveSchema (.reference path) = .ok (some target)) :
    ∃ schema, c.schemas.lookup name = some schema ∧
      resolveIn "schemas" Schema.path? c.schemas c.schemas.length schema = .ok (some target) := by
  obtain ⟨reference, hparse, rfl⟩ := Reference.parse_of_localName hname
  rw [resolveSchema_reference hparse] at h
  split at h
  · split at h
    · next schema hlookup => exact ⟨schema, hlookup, h⟩
    · cases h
  · cases h

theorem mem_of_resolveSchema {path name : String}
    (hname : Reference.localName? path = .ok (some name))
    (h : c.resolveSchema (.reference path) = .ok (some target)) :
    ∃ schema, (name, schema) ∈ c.schemas := by
  obtain ⟨schema, hlookup, _⟩ := lookup_of_resolveSchema hname h
  obtain ⟨before, after, heq, _⟩ := List.lookup_eq_some_iff.1 hlookup
  exact ⟨schema, by simp [heq]⟩

end ApiComponents

end RequestDocs.OpenApi
