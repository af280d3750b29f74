import Mathlib.Data.List.Count
import RequestDocs.OpenApi.Requests
import RequestDocs.Proofs.Occurrences
import RequestDocs.Proofs.Steps
/-!
# Sent parameters

The parameters sent with the requests of an operation. They come from three sources: what the operations
of a path share, what the operation declares itself, which takes the place of what is shared and of what
it has declared before, and the tokens of the path.
-/

namespace RequestDocs

open OpenApi

def Parameter.declaration (p : Parameter) : ApiParameter where
  place := match p.location with
    | .path => .path
    | .query => .query
    | .header => .header
  name := p.name

theorem Parameter.declaration_injective : Function.Injective Parameter.declaration := by
  intro p q h
  obtain ⟨location, name⟩ := p
  obtain ⟨location', name'⟩ := q
  simp only [declaration, ApiParameter.mk.injEq] at h
  cases location <;> cases location' <;> simp_all

theorem Parameter.declaration_place_ne (p : Parameter) : p.declaration.place ≠ .cookie := by
  unfold declaration
  cases p.location <;> simp

namespace OpenApi

theorem foldl_overrideParameter (shared own : List ApiParameter) :
    own.foldl overrideParameter shared = shared.filter (· ∉ own) ++ own.dedup := by
  induction own generalizing shared with
  | nil => simp
  | cons p own ih =>
    -- The shared parameters that are left are those besides `p` and the rest.
    have hshared : (shared.filter (· != p)).filter (· ∉ own) = shared.filter (· ∉ p :: own) := by
      rw [List.filter_filter]
      apply List.filter_congr
      intro q _
      by_cases hq : q = p
      · simp [hq]
      · simp [hq]
    rw [List.foldl_cons, ih, overrideParameter, List.filter_append, hshared, List.append_assoc]
    by_cases hp : p ∈ own
    · simp [hp, List.dedup_cons_of_mem hp]
    · simp [hp, List.dedup_cons_of_notMem hp]

theorem map_declaration_filterMap (parameters : List ApiParameter) :
    (parameters.filterMap sentParameter?).map Parameter.declaration =
      parameters.filter (·.place ≠ .cookie) := by
  induction parameters with
  | nil => rfl
  | cons p parameters ih =>
    obtain ⟨place, name⟩ := p
    rw [List.filterMap_cons, List.filter_cons]
    cases place <;> simpa [sentParameter?, Parameter.declaration] using ih

theorem map_declaration_undeclaredTokens (path : String) (declared : List Parameter) :
    (undeclaredTokens path declared).map Parameter.declaration =
      ((uniqueTemplateParams path).map (⟨.path, ·⟩)).filter
        (· ∉ declared.map Parameter.declaration) := by
  have hsame (token : String) : (!declared.contains ⟨.path, token⟩) =
      decide ((⟨.path, token⟩ : ApiParameter) ∉ declared.map Parameter.declaration) := by
    have hiff : (⟨.path, token⟩ : ApiParameter) ∈ declared.map Parameter.declaration ↔
        (⟨.path, token⟩ : Parameter) ∈ declared :=
      List.mem_map_of_injective (a := ⟨.path, token⟩) Parameter.declaration_injective
    simp only [hiff, List.contains_eq_mem, decide_not]
  unfold undeclaredTokens
  rw [List.filter_map, List.filter_map, List.map_map]
  congr 1
  apply List.filter_congr
  intro token _
  exact hsame token

private theorem resolveParameters_eq {components : ApiComponents}
    {resolve : OrReference ApiParameter → Option ApiParameter}
    {parameters : List (OrReference ApiParameter)}
    (h : ∀ p ∈ parameters, components.resolveParameter p = .ok (resolve p)) :
    resolveParameters components parameters = .ok (parameters.filterMap resolve) := by
  have hmap : parameters.mapM components.resolveParameter = .ok (parameters.map resolve) := by
    induction parameters with
    | nil => rfl
    | cons p parameters ih =>
      obtain ⟨hp, hrest⟩ := List.forall_mem_cons.1 h
      rw [List.mapM_cons, hp, ih hrest]
      rfl
  unfold resolveParameters
  rw [hmap]
  simp [bind, Except.bind, pure, Except.pure, List.filterMap_map]

/-- What is sent, by the declarations it stands for: those shared ones that the operation does not
declare, in order, then its own ones, each once and in the order of the last occurrences, all without
cookies; then the tokens of the path that have no declaration for the path, each once and in the order
of the first occurrences. -/
structure Collected (path : String) (shared own : List ApiParameter) (sent : List Parameter) :
    Prop where
  parts : ∃ latest tokens declared, LastOccurrences own latest ∧
    FirstOccurrences (templateParams path) tokens ∧
    declared = (shared.filter (· ∉ own) ++ latest).filter (·.place ≠ .cookie) ∧
    sent.map Parameter.declaration =
      declared ++ (tokens.map (⟨.path, ·⟩)).filter (· ∉ declared)
  tokens : ∀ token ∈ templateParams path, ⟨.path, token⟩ ∈ sent
  once : ∀ p : Parameter, p.declaration ∈ own → sent.count p = 1

/-- A parameter that the operation declares is sent once: it is left out of the shared ones, and a token
with its name is not added. -/
private theorem count_collected {shared own : List ApiParameter} {tokens : List String} {p : Parameter}
    (hp : p.declaration ∈ own) {declared : List ApiParameter}
    (hdeclared : declared = (shared.filter (· ∉ own) ++ own.dedup).filter (·.place ≠ .cookie)) :
    (declared ++ (tokens.map (⟨.path, ·⟩)).filter (· ∉ declared)).count p.declaration = 1 := by
  have hplace : decide (p.declaration.place ≠ .cookie) = true :=
    decide_eq_true p.declaration_place_ne
  have hshared : (shared.filter (· ∉ own)).count p.declaration = 0 := by
    apply List.count_eq_zero.2
    intro hmem
    exact of_decide_eq_true (List.mem_filter.1 hmem).2 hp
  have hown : own.dedup.count p.declaration = 1 :=
    List.count_eq_one_of_mem (List.nodup_dedup own) (List.mem_dedup.2 hp)
  have hcount : declared.count p.declaration = 1 := by
    rw [hdeclared, List.count_filter, List.count_append, hshared, hown]
    exact hplace
  have hadded : ((tokens.map (⟨.path, ·⟩)).filter (· ∉ declared)).count p.declaration = 0 := by
    apply List.count_eq_zero.2
    intro hmem
    have hmember : p.declaration ∈ declared := List.count_pos_iff.1 (by omega)
    exact of_decide_eq_true (List.mem_filter.1 hmem).2 hmember
  rw [List.count_append, hcount, hadded]

private theorem collected_of_eq {path : String} {shared own : List ApiParameter}
    {declared : List Parameter}
    (h : declared = (own.foldl overrideParameter shared).filterMap sentParameter?) :
    Collected path shared own (declared ++ undeclaredTokens path declared) := by
  have hdeclared : declared.map Parameter.declaration =
      (shared.filter (· ∉ own) ++ own.dedup).filter (·.place ≠ .cookie) := by
    rw [h, map_declaration_filterMap, foldl_overrideParameter]
  have hsent : (declared ++ undeclaredTokens path declared).map Parameter.declaration =
      declared.map Parameter.declaration ++ ((uniqueTemplateParams path).map (⟨.path, ·⟩)).filter
        (· ∉ declared.map Parameter.declaration) := by
    rw [List.map_append, map_declaration_undeclaredTokens]
  refine ⟨⟨own.dedup, uniqueTemplateParams path, declared.map Parameter.declaration,
    lastOccurrences_dedup own, firstOccurrences_eraseDups _, hdeclared, hsent⟩, ?_, ?_⟩
  · intro token htoken
    have hmem : token ∈ uniqueTemplateParams path := List.mem_eraseDups.2 htoken
    by_cases hknown : (⟨.path, token⟩ : Parameter) ∈ declared
    · exact List.mem_append_left _ hknown
    · apply List.mem_append_right
      apply List.mem_filter.2
      exact ⟨List.mem_map_of_mem hmem, by simpa using hknown⟩
  · intro p hp
    rw [← List.count_map_of_injective _ _ Parameter.declaration_injective p, hsent]
    exact count_collected hp hdeclared

/-- The parameters of an operation whose references can be resolved are collected from the shared ones,
its own ones and the tokens of its path; a reference that stands for no parameter is left out. -/
theorem Api.collectParameters_collected (api : Api) (path : String) (op : ApiOperation)
    {resolve : OrReference ApiParameter → Option ApiParameter}
    (h : ∀ p ∈ api.sharedParameters path ++ op.parameters,
      api.components.resolveParameter p = .ok (resolve p)) :
    Succeeds (collectParameters api.components path (api.sharedParameters path) op.parameters)
      (Collected path ((api.sharedParameters path).filterMap resolve)
        (op.parameters.filterMap resolve)) := by
  obtain ⟨hshared, hown⟩ := List.forall_mem_append.1 h
  unfold collectParameters
  rw [resolveParameters_eq hshared, resolveParameters_eq hown]
  exact .pure (collected_of_eq rfl)

/-- Visits to a pet: the id of the pet and three more parameters are shared, two of the four are declared
again, and one of these twice. -/
def petVisits : Api where
  title := "Pets"
  security := []
  paths := [("/pets/{petId}/visits/{visitId}", {
    operations := []
    parameters := [.object ⟨.path, "petId"⟩, .object ⟨.query, "verbose"⟩,
      .object ⟨.header, "X-Request-Id"⟩, .object ⟨.cookie, "session"⟩] })]
  components := {
    schemas := []
    parameters := [("Limit", .object ⟨.query, "limit"⟩)]
    requestBodies := [] }

def listVisits : ApiOperation where
  operationId := some "listVisits"
  tags := []
  parameters := [.object ⟨.query, "verbose"⟩, .reference "#/components/parameters/Limit",
    .reference "#/components/parameters/Page", .object ⟨.query, "verbose"⟩,
    .object ⟨.cookie, "session"⟩]
  requestBody := none

theorem listVisits_collected :
    let path := "/pets/{petId}/visits/{visitId}"
    let resolve : OrReference ApiParameter → Option ApiParameter := fun
      | .object p => some p
      | .reference text => if text = "#/components/parameters/Limit" then some ⟨.query, "limit"⟩ else none
    (∀ p ∈ petVisits.sharedParameters path ++ listVisits.parameters,
      petVisits.components.resolveParameter p = .ok (resolve p)) ∧
    collectParameters petVisits.components path (petVisits.sharedParameters path)
      listVisits.parameters = .ok [⟨.path, "petId"⟩, ⟨.header, "X-Request-Id"⟩, ⟨.query, "limit"⟩,
        ⟨.query, "verbose"⟩, ⟨.path, "visitId"⟩] ∧
    Collected path ((petVisits.sharedParameters path).filterMap resolve)
      (listVisits.parameters.filterMap resolve) [⟨.path, "petId"⟩, ⟨.header, "X-Request-Id"⟩,
        ⟨.query, "limit"⟩, ⟨.query, "verbose"⟩, ⟨.path, "visitId"⟩] := by
  intro path resolve
  have hresolve : ∀ p ∈ petVisits.sharedParameters path ++ listVisits.parameters,
      petVisits.components.resolveParameter p = .ok (resolve p) := by
    have hall : petVisits.sharedParameters path ++ listVisits.parameters = [
        .object ⟨.path, "petId"⟩, .object ⟨.query, "verbose"⟩, .object ⟨.header, "X-Request-Id"⟩,
        .object ⟨.cookie, "session"⟩, .object ⟨.query, "verbose"⟩,
        .reference "#/components/parameters/Limit", .reference "#/components/parameters/Page",
        .object ⟨.query, "verbose"⟩, .object ⟨.cookie, "session"⟩] := rfl
    rw [hall]
    simp only [List.forall_mem_cons]
    exact ⟨rfl, rfl, rfl, rfl, rfl, rfl, rfl, rfl, rfl, by simp⟩
  have hrun : collectParameters petVisits.components path (petVisits.sharedParameters path)
      listVisits.parameters = .ok [⟨.path, "petId"⟩, ⟨.header, "X-Request-Id"⟩, ⟨.query, "limit"⟩,
        ⟨.query, "verbose"⟩, ⟨.path, "visitId"⟩] :=
    ok_of_toOption (by decide +kernel)
  obtain ⟨sent, hsent, hcollected⟩ := petVisits.collectParameters_collected path listVisits hresolve
  cases hrun.symm.trans hsent
  exact ⟨hresolve, hrun, hcollected⟩

end OpenApi

end RequestDocs
