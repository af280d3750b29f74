import RequestDocs.Proofs.ShownTypes
import RequestDocs.Proofs.TypeNames
/-!
# Names converted again

A name that is made from another name is that name, unless it is an acronym: two capitals or more
and no small letter are put in small letters after the first. The hint for a record in a field is
made of two names and converted again, so the record is called by the hint unless that is an
acronym.
-/

namespace RequestDocs

private theorem IsTypeName.exists_cons {name : String} (h : IsTypeName name) :
    ∃ c rest, name.toList = c :: rest ∧ c.isUpper ∧ c.isAlphanum ∧ ∀ d ∈ rest, d.isAlphanum := by
  obtain ⟨c, hc, hupper⟩ := h.capital
  obtain ⟨rest, hlist⟩ := List.head?_eq_some_iff.1 hc
  have hall : ∀ d ∈ c :: rest, d.isAlphanum := hlist ▸ h.isIdentifier
  exact ⟨c, rest, hlist, hupper, List.forall_mem_cons.1 hall⟩

namespace Naming

open Text

variable {name : String}

/-- Texts in ASCII are spelled as they are, and a word without small letters keeps the case of its
first letter only. -/
structure Faithful [Spelling] : Prop where
  ascii : ∀ c, c.toNat < 128 → Spelling.ascii c = [c]
  word : ∀ chunk, AreChunks [chunk] → (∀ c ∈ chunk, ¬c.isLower) →
    Spelling.pascal chunk = capitalize (lowercase chunk)

theorem humps_eq_singleton {chunk : List Char} (hne : chunk ≠ []) (h : ∀ c ∈ chunk, ¬c.isLower) :
    humps chunk = [chunk] := by
  induction chunk with
  | nil => exact absurd rfl hne
  | cons c cs ih =>
    obtain ⟨hc, hcs⟩ := List.forall_mem_cons.1 h
    cases cs with
    | nil => rfl
    | cons d ds =>
      have hrest := ih (List.cons_ne_nil d ds) hcs
      unfold humps at hrest ⊢
      simp [cutBefore, hc, hrest]

theorem faithful_ofOthers (others : Char → List Char) : @Faithful (.ofOthers others) := by
  refine @Faithful.mk (.ofOthers others) (fun _ => Spelling.ascii_ofOthers others) ?_
  intro chunk h hcapitals
  have hjoined := joinHumps_joinWith h
  have hhumps := humps_eq_singleton (h.nonempty chunk List.mem_cons_self) hcapitals
  rwa [List.flatMap_singleton, hhumps, List.flatMap_singleton, joinWith] at hjoined

/-- A capital after the first letter, and no small letter. -/
def IsAcronym (name : String) : Prop :=
  (∀ c ∈ name.toList, ¬c.isLower) ∧ ∃ c ∈ name.toList.tail, c.isUpper

instance (name : String) : Decidable (IsAcronym name) :=
  decidable_of_iff (name.toList.all (!·.isLower) && name.toList.tail.any Char.isUpper)
    (by simp [IsAcronym])

/-- An acronym in small letters after the first, and every other name as it is. -/
def recased (name : String) : String :=
  if IsAcronym name then String.ofList (capitalize (lowercase name.toList)) else name

private theorem toUpper_of_isUpper {c : Char} (halphanum : c.isAlphanum) (h : c.isUpper) :
    c.toUpper = c ∧ c.toLower.toUpper = c ∧ c.toLower.isLower :=
  of_isAlphanum
    (P := fun c => c.isUpper → c.toUpper = c ∧ c.toLower.toUpper = c ∧ c.toLower.isLower)
    (by decide +kernel) halphanum h

private theorem toLower_of_not_isUpper {c : Char} (halphanum : c.isAlphanum) (h : ¬c.isUpper) :
    c.toLower = c :=
  of_isAlphanum (P := fun c => ¬c.isUpper → c.toLower = c) (by decide +kernel) halphanum h

private theorem recased_of_capitals {c : Char} {rest : List Char} (hname : name.toList = c :: rest)
    (hupper : c.isUpper) (hc : c.isAlphanum) (hrest : ∀ d ∈ rest, d.isAlphanum)
    (hcapitals : ∀ d ∈ c :: rest, ¬d.isLower) : (recased name).toList = c :: lowercase rest := by
  obtain ⟨-, hfirst, -⟩ := toUpper_of_isUpper hc hupper
  unfold recased
  split
  · rw [String.toList_ofList, hname]
    exact congrArg (· :: lowercase rest) hfirst
  · next hno =>
    have hsingle : ∀ d ∈ rest, d.toLower = d := by
      intro d hd
      refine toLower_of_not_isUpper (hrest d hd) fun hd' => hno ?_
      exact ⟨hname ▸ hcapitals, d, by rw [hname]; exact hd, hd'⟩
    rw [hname, lowercase, List.map_congr_left hsingle, List.map_id']

private theorem recased_of_small {d : Char} (hd : d ∈ name.toList) (hsmall : d.isLower) :
    recased name = name := if_neg fun h => h.1 d hd hsmall

theorem recased_eq_iff (h : IsTypeName name) : recased name = name ↔ ¬IsAcronym name := by
  refine ⟨?_, fun hno => if_neg hno⟩
  rintro hsame ⟨hcapitals, d, hd, hupper⟩
  obtain ⟨c, rest, hname, hfirst, hc, hrest⟩ := h.exists_cons
  rw [hname] at hcapitals hd
  have hletters := recased_of_capitals hname hfirst hc hrest hcapitals
  rw [hsame, hname, List.cons.injEq] at hletters
  have hrest' : lowercase rest = rest.map id := hletters.2.symm.trans (List.map_id rest).symm
  have hlower : d.toLower = d := List.map_inj_left.1 hrest' d hd
  obtain ⟨-, -, hsmall⟩ := toUpper_of_isUpper (hrest d hd) hupper
  exact hcapitals d (List.mem_cons_of_mem c hd) (hlower ▸ hsmall)

private theorem head?_recased (h : IsTypeName name) :
    (recased name).toList.head? = name.toList.head? := by
  by_cases hacronym : IsAcronym name
  · obtain ⟨c, rest, hname, hfirst, hc, hrest⟩ := h.exists_cons
    rw [recased_of_capitals hname hfirst hc hrest (hname ▸ hacronym.1), hname]
    rfl
  · rw [(recased_eq_iff h).2 hacronym]

theorem recased_recased (h : IsTypeName name) : recased (recased name) = recased name := by
  by_cases hacronym : IsAcronym name
  · obtain ⟨c, rest, hname, hfirst, hc, hrest⟩ := h.exists_cons
    obtain ⟨hcapitals, d, hd, hupper⟩ := hacronym
    rw [hname] at hcapitals hd
    have hletters := recased_of_capitals hname hfirst hc hrest hcapitals
    obtain ⟨-, -, hsmall⟩ := toUpper_of_isUpper (hrest d hd) hupper
    have hmem : d.toLower ∈ (recased name).toList := by
      rw [hletters]
      exact List.mem_cons_of_mem c (List.mem_map_of_mem hd)
    exact recased_of_small hmem hsmall
  · rw [(recased_eq_iff h).2 hacronym, (recased_eq_iff h).2 hacronym]

private theorem chunks_of_isTypeName [Spelling] (hfaithful : Faithful) (h : IsTypeName name) :
    chunks name = [name.toList] := by
  have hspelled : name.toList.flatMap Spelling.ascii = name.toList :=
    flatMap_ascii hfaithful.ascii fun c hc => toNat_lt_of_isAlphanum (h.isIdentifier c hc)
  have hwhole : ∀ c ∈ name.toList, (!c.isAlphanum) = false := by
    simpa [IsIdentifier] using h.isIdentifier
  obtain ⟨c, rest, hname, -⟩ := h.exists_cons
  rw [chunks, hspelled, splitWhere_eq_singleton hwhole, hname]
  rfl

theorem Faithful.typeName_eq [Spelling] (hfaithful : Faithful) (h : IsTypeName name) :
    typeName name = recased name := by
  obtain ⟨c, rest, hname, hupper, hc, hrest⟩ := h.exists_cons
  obtain ⟨hsame, hfirst, -⟩ := toUpper_of_isUpper hc hupper
  have hletters : pascalCase [c :: rest] = (recased name).toList := by
    cases hany : (c :: rest).any Char.isLower with
    | true =>
      obtain ⟨d, hd, hsmall⟩ := List.any_eq_true.1 hany
      rw [recased_of_small (hname ▸ hd) hsmall, hname]
      simp only [pascalCase, hany, if_true, capitalize, hsame]
    | false =>
      have hcapitals : ∀ d ∈ c :: rest, ¬d.isLower := by simpa using hany
      have hword := hfaithful.word (c :: rest) ⟨by simp, by simp, by simpa using ⟨hc, hrest⟩⟩ hcapitals
      rw [recased_of_capitals hname hupper hc hrest hcapitals]
      simp only [pascalCase, hany, hword]
      exact congrArg (· :: lowercase rest) hfirst
  have hdigit : startsWithDigit (recased name).toList = false := by
    rw [startsWithDigit, head?_recased h, hname]
    exact of_isAlphanum (P := fun c => c.isUpper → c.isDigit = false) (by decide +kernel) hc hupper
  rw [typeName, chunks_of_isTypeName hfaithful h, hname]
  simp only [hletters, hdigit, Bool.false_eq_true, if_false, String.ofList_toList]

theorem isAcronym_append_iff {name' : String} (h : IsTypeName name) (h' : IsTypeName name') :
    IsAcronym (name ++ name') ↔ ∀ c ∈ (name ++ name').toList, ¬c.isLower := by
  refine ⟨And.left, fun hcapitals => ⟨hcapitals, ?_⟩⟩
  obtain ⟨c, rest, hname, -⟩ := h.exists_cons
  obtain ⟨d, rest', hname', hupper, -⟩ := h'.exists_cons
  exact ⟨d, by simp [hname, hname'], hupper⟩

end Naming

namespace Synthesis

open Naming

variable {g : TypeGraph} {id : TypeId} {node : TypeNode} {s : SynthesisState}

theorem discover_gives [Spelling]
    (hnode : g.get id = .ok node) (hnone : s.registry.nameOf? id = none)
    (hint : String) : Completes (discover g id hint) s fun name t =>
      t.registry.nameOf? id = some name ∧
        KeptApart s.registry.used (typeName (node.declaredName?.getD hint)) name := by
  obtain ⟨name, hnew, happart⟩ := NameRegistry.nameFor_of_unnamed hnone hnode hint
  refine .get_bind (.lift_bind ⟨_, hnew, rfl⟩ ?_)
  rintro _ rfl
  refine .bind (M := fun _ t => t.registry = s.registry.insert id name) (.set rfl) ?_
  intro _ t ht
  exact .pure ⟨ht ▸ NameRegistry.nameOf?_insert_self hnone name, happart⟩

theorem sampleBelow_gives [Spelling]
    (hg : g.Closed) (hnode : g.get id = .ok node) (hrecord : node.isRecord)
    (hnone : s.registry.nameOf? id = none) (room : Nat) (above : List TypeId) (hint path : String) :
    Completes (sampleBelow g room above hint path id) s fun _ t =>
      ∃ name, t.registry.nameOf? id = some name ∧
        KeptApart s.registry.used (typeName (node.declaredName?.getD hint)) name := by
  have hid : g.IsRecord id := ⟨node, hnode, hrecord⟩
  have hgives := discover_gives hnode hnone hint
  by_cases habove : id ∈ above
  · rw [sampleBelow_recursive hid habove]
    exact .bind hgives fun name t hname => .pure ⟨name, hname⟩
  cases room with
  | zero =>
    rw [sampleBelow_cutOff hid habove]
    exact .bind hgives fun name t hname => .pure ⟨name, hname⟩
  | succ room =>
    rw [sampleBelow_block hid habove]
    refine .bind hgives fun name t ⟨hname, happart⟩ => ?_
    refine .lift_bind (hg.allFields_ok hid.has) fun fields htypes => ?_
    have hentries : Completes (fields.mapM (entryBelow g room (id :: above) name)) t
        fun _ u => t.registry.Keeps u.registry := by
      refine .mapM_keeps fields t (.refl _) fun field hfield u hkeeps => ?_
      obtain ⟨survey, -, hbehaves⟩ :=
        sampleBelow_behaves hg room (id :: above) (htypes field hfield)
      exact .bind (hbehaves _ _ u) fun sample v hmoves => .pure (hkeeps.trans hmoves.2.names)
    exact .bind hentries fun entries u hkeeps => .pure ⟨name, hkeeps.kept id name hname, happart⟩

end Synthesis

namespace Naming

/-- A name is not changed when it is converted again if and only if it is no acronym, and a name
that has been converted twice is not changed any more. A record without a declared name that is
first met in a field is called by the names of its owner and of the field one after the other, kept
apart from the names in use; these are changed only if neither has a small letter. -/
theorem typeName_again [Spelling] (hfaithful : Faithful) :
    (∀ s, typeName (typeName s) = typeName s ↔ ¬IsAcronym (typeName s)) ∧
    (∀ s, typeName (typeName (typeName s)) = typeName (typeName s)) ∧
    ∀ (g : TypeGraph) (owner : String) (field : Field) (base : Option TypeId) (fields : List Field)
      (s : SynthesisState), g.Closed → IsTypeName owner →
      g.get field.type = .ok (.record none base fields) → s.registry.nameOf? field.type = none →
      let hint := owner ++ typeName field.name
      (∀ room above, Completes (Synthesis.entryBelow g room above owner field) s fun _ t =>
        ∃ name, t.registry.nameOf? field.type = some name ∧
          KeptApart s.registry.used (recased hint) name) ∧
      (recased hint = hint ↔ ∃ c ∈ hint.toList, c.isLower) := by
  refine ⟨fun s => ?_, fun s => ?_, ?_⟩
  · have h := isTypeName_typeName s
    rw [hfaithful.typeName_eq h]
    exact recased_eq_iff h
  · have h := isTypeName_typeName s
    rw [hfaithful.typeName_eq (isTypeName_typeName (typeName s)), hfaithful.typeName_eq h]
    exact recased_recased h
  · intro g owner field base fields s hg howner hnode hnone hint
    have hfield : IsTypeName (typeName field.name) := isTypeName_typeName field.name
    have hboth : IsTypeName hint := howner.append hfield.isIdentifier
    have hconverted : typeName hint = recased hint := hfaithful.typeName_eq hboth
    constructor
    · intro room above
      have hgives := Synthesis.sampleBelow_gives hg hnode rfl hnone room above hint
        (owner ++ "." ++ field.name)
      rw [← hconverted]
      exact .bind hgives fun sample t hname => .pure hname
    · rw [recased_eq_iff hboth, isAcronym_append_iff howner hfield]
      simp only [not_forall, not_not, exists_prop]
      exact Iff.rfl

def ownedGraph (owner field : String) : TypeGraph :=
  .ofList [.record (some owner) none [⟨field, ⟨1⟩⟩], .record none none []]

theorem ownedGraph_closed (owner field : String) : (ownedGraph owner field).Closed := by
  simp [ownedGraph, TypeGraph.Closed, TypeGraph.ofList, TypeNode.references, TypeGraph.Has,
    TypeGraph.size]

attribute [local instance] Spelling.plain

theorem petOwner_again :
    let hint := "Pet" ++ typeName "owner"
    let s : SynthesisState := ⟨.insert .empty ⟨0⟩ "Pet", .empty, []⟩
    Faithful ∧ IsTypeName "Pet" ∧ s.registry.nameOf? ⟨1⟩ = none ∧
      hint = "PetOwner" ∧ typeName (typeName "v2 id") = "V2Id" ∧
      Completes (Synthesis.entryBelow (ownedGraph "Pet" "owner") 2 [⟨0⟩] "Pet" ⟨"owner", ⟨1⟩⟩) s
        fun _ t => t.registry.nameOf? ⟨1⟩ = some "PetOwner" := by
  intro hint s
  have hfaithful : Faithful := faithful_ofOthers _
  obtain ⟨hagain, -, hgives⟩ := typeName_again hfaithful
  have howner : IsTypeName "Pet" := ⟨⟨'P', by decide +kernel, by decide⟩, by decide +kernel⟩
  have hhint : hint = "PetOwner" := by decide +kernel
  have hid : typeName "v2 id" = "V2Id" := by decide +kernel
  have hsame := (hagain "v2 id").2 (by rw [hid]; decide)
  obtain ⟨hname, hrecased⟩ := hgives (ownedGraph "Pet" "owner") "Pet" ⟨"owner", ⟨1⟩⟩ none [] s
    (ownedGraph_closed _ _) howner rfl rfl
  have hkeeps : recased hint = hint := hrecased.2 ⟨'e', by decide +kernel, by decide⟩
  refine ⟨hfaithful, howner, rfl, hhint, hsame.trans hid, (hname 2 [⟨0⟩]).mono ?_⟩
  rintro _ t ⟨name, hgiven, happart⟩
  change KeptApart ["Pet"] (recased hint) name at happart
  rw [hkeeps, hhint] at happart
  cases happart with
  | unchanged => exact hgiven
  | numbered _ hused => exact absurd hused (by decide)

/-- Two capitals side by side are an acronym: neither is the name the same when it is converted
again, nor is a record called by the names of its owner and its field. -/
theorem axisNames_change :
    typeName "x_y" = "XY" ∧ typeName (typeName "x_y") = "Xy" ∧ "X" ++ typeName "y" = "XY" ∧
      (do
        let _ ← Synthesis.synthesize (ownedGraph "X" "y") 3 "Body" ⟨0⟩
        return (← get).registry.names).run' SynthesisState.initial =
          some [(⟨0⟩, "X"), (⟨1⟩, "Xy")] := by
  refine ⟨?_, ?_, ?_, ?_⟩ <;> decide +kernel

end Naming

end RequestDocs
