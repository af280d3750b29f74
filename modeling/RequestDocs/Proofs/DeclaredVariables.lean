import RequestDocs.Proofs.BodySurveys
/-!
# Declared variables

The names that the variables section of a document declares. No name is declared twice exactly when
the names of the parameters are apart from one another and from the variables of every document.
-/

namespace RequestDocs

namespace Document

def beforeEquals? : List Char → Option (List Char)
  | [] => none
  | c :: cs =>
    if " = ".toList.isPrefixOf (c :: cs) then some [] else (beforeEquals? cs).map (c :: ·)

def declaredName? (line : String) : Option String :=
  match line.toList with
  | '@' :: cs => (beforeEquals? cs).map String.ofList
  | _ => none

/-- The names declared by the lines of the variables section. -/
def declaredNames (d : Document) : List String := d.declarations.filterMap declaredName?

/-- The name can be read off a line that declares it. -/
def IsLegible (name : String) : Prop := ∀ c ∈ name.toList, c ≠ '='

instance (name : String) : Decidable (IsLegible name) := List.decidableBAll _ name.toList

private theorem beforeEquals?_append {name : List Char} (h : ∀ c ∈ name, c ≠ '=')
    (value : List Char) : beforeEquals? (name ++ ' ' :: '=' :: ' ' :: value) = some name := by
  induction name with
  | nil => simp [beforeEquals?]
  | cons c cs ih =>
    obtain ⟨hc, hcs⟩ := List.forall_mem_cons.1 h
    -- A blank in the name is not followed by an equals sign, as this is none of its characters.
    have hno : " = ".toList.isPrefixOf (c :: (cs ++ ' ' :: '=' :: ' ' :: value)) = false := by
      cases cs with
      | nil => simp [List.isPrefixOf]
      | cons d ds =>
        have hd : d ≠ '=' := hcs d List.mem_cons_self
        simp [List.isPrefixOf, hd.symm]
    rw [List.cons_append, beforeEquals?, hno, ih hcs]
    rfl

theorem declaredName?_declaration {name : String} (h : IsLegible name) (value : String) :
    declaredName? (declaration name value) = some name := by
  have hlist : (declaration name value).toList =
      '@' :: (name.toList ++ ' ' :: '=' :: ' ' :: value.toList) := by simp [declaration]
  simp only [declaredName?, hlist, beforeEquals?_append h]
  simp

theorem filterMap_placeholder {params : List String} (h : ∀ name ∈ params, IsLegible name) :
    (params.map placeholder).filterMap declaredName? = params := by
  induction params with
  | nil => rfl
  | cons name params ih =>
    obtain ⟨hname, hparams⟩ := List.forall_mem_cons.1 h
    have hfirst : declaredName? (placeholder name) = some name := declaredName?_declaration hname _
    rw [List.map_cons, List.filterMap_cons_some hfirst, ih hparams]

theorem filterMap_parameterGroup {heading : String} (hheading : declaredName? heading = none)
    {params : List String} (h : ∀ name ∈ params, IsLegible name) :
    (parameterGroup heading params).filterMap declaredName? = params := by
  unfold parameterGroup
  split
  · next hnone => simpa using hnone.symm
  · have hblank : declaredName? "" = none := by decide
    rw [List.filterMap_cons_none hblank, List.filterMap_cons_none hheading,
      filterMap_placeholder h]

def defaultVariables : List String := ["host", "port", "baseUrl"]

theorem declaredNames_start (options : DocumentOptions) :
    (start options).declaredNames = defaultVariables := by
  have hheading : declaredName? variablesHeading = none := by decide
  have hhost : IsLegible "host" := by decide
  have hport : IsLegible "port" := by decide
  have hbaseUrl : IsLegible "baseUrl" := by decide
  simp [declaredNames, start, defaultVariables, hheading, declaredName?_declaration hhost,
    declaredName?_declaration hport, declaredName?_declaration hbaseUrl]

theorem filterMap_authenticationGroup :
    authenticationGroup.filterMap declaredName? = ["authToken"] := by decide

end Document

namespace Operation

open Document

/-- The parameters that have variables: the tokens of the path and the query parameters. -/
def placeholders (op : Operation) : List String :=
  uniqueTemplateParams op.writtenPath ++ op.parametersIn .query

/-- The variables of the document of an operation, in the order of their declarations. -/
def variableNames (op : Operation) : List String :=
  defaultVariables ++ op.placeholders ++ if op.authentication.isRequired then ["authToken"] else []

theorem declaredNames_draft (op : Operation) (options : DocumentOptions)
    (h : ∀ name ∈ op.placeholders, IsLegible name) :
    (op.draft options).declaredNames = op.variableNames := by
  obtain ⟨hpath, hquery⟩ := List.forall_mem_append.1 h
  have hpathHeading : declaredName? "// Path parameters" = none := by decide
  have hqueryHeading : declaredName? "// Query parameters" = none := by decide
  have hsections : (op.draft options).declarations = (start options).declarations ++
      parameterGroup "// Path parameters" (uniqueTemplateParams op.writtenPath) ++
      parameterGroup "// Query parameters" (op.parametersIn .query) ++
      if op.authentication.isRequired then authenticationGroup else [] := rfl
  have hauthentication : (if op.authentication.isRequired then authenticationGroup else []).filterMap
      declaredName? = if op.authentication.isRequired then ["authToken"] else [] := by
    split
    · exact filterMap_authenticationGroup
    · rfl
  rw [declaredNames, hsections, List.filterMap_append, List.filterMap_append, List.filterMap_append,
    ← declaredNames, declaredNames_start, filterMap_parameterGroup hpathHeading hpath,
    filterMap_parameterGroup hqueryHeading hquery, hauthentication]
  simp [variableNames, placeholders]

/-- The names of the parameters are apart from one another and from the other variables. -/
structure NamesApart (op : Operation) : Prop where
  queries : (op.parametersIn .query).Nodup
  tokens : ∀ name ∈ op.parametersIn .query, name ∉ uniqueTemplateParams op.writtenPath
  defaults : ∀ name ∈ op.placeholders, name ∉ defaultVariables
  authToken : op.authentication.isRequired → "authToken" ∉ op.placeholders

theorem nodup_placeholders (op : Operation) : op.placeholders.Nodup ↔
    (op.parametersIn .query).Nodup ∧
      ∀ name ∈ op.parametersIn .query, name ∉ uniqueTemplateParams op.writtenPath := by
  have htokens : (uniqueTemplateParams op.writtenPath).Nodup := nodup_eraseDups _
  rw [placeholders, List.nodup_append']
  constructor
  · intro ⟨_, hqueries, hapart⟩
    exact ⟨hqueries, fun name hquery htoken => hapart htoken hquery⟩
  · intro ⟨hqueries, hapart⟩
    exact ⟨htokens, hqueries, fun name htoken hquery => hapart name hquery htoken⟩

theorem nodup_variableNames (op : Operation) : op.variableNames.Nodup ↔ op.NamesApart := by
  have hdefaults : defaultVariables.Nodup := by decide
  have hauthToken : "authToken" ∉ defaultVariables := by decide
  rw [variableNames, List.nodup_append', List.nodup_append', nodup_placeholders]
  constructor
  · intro ⟨⟨_, ⟨hqueries, htokens⟩, hapart⟩, _, hlast⟩
    refine ⟨hqueries, htokens, fun name hname hdefault => hapart hdefault hname, ?_⟩
    intro hrequired hname
    simp [hrequired, hname] at hlast
  · intro h
    refine ⟨⟨hdefaults, ⟨h.queries, h.tokens⟩, fun name hdefault hname => ?_⟩, ?_, ?_⟩
    · exact h.defaults name hname hdefault
    · split <;> simp
    · split
      · next hrequired => simp [hauthToken, h.authToken hrequired]
      · simp

/-- The document of an operation with legible parameters declares the default variables, those of the
parameters and that of the authentication, each once exactly when their names are apart. -/
theorem assemble_declares_once_iff [Spelling] {g : TypeGraph} (hg : g.Closed) {op : Operation}
    (hbody : ∀ b ∈ op.body, g.Has b.type) (hlegible : ∀ name ∈ op.placeholders, IsLegible name)
    (options : AssemblyOptions) (s : SynthesisState) :
    Completes (assemble g options op) s fun document _ =>
      (∃ lines, document.contents =
        String.intercalate "\n" ((op.draft options.document).head op.name ++ lines)) ∧
      (op.draft options.document).declaredNames = op.variableNames ∧
      ((op.draft options.document).declaredNames.Nodup ↔ op.NamesApart) := by
  have hnames := op.declaredNames_draft options.document hlegible
  obtain ⟨survey, -, hbehaves⟩ := op.assemble_behaves hg options hbody
  apply (hbehaves s).mono
  intro document _ ⟨hassembled, _⟩
  obtain ⟨lines, -, hdocument⟩ := hassembled
  rw [hnames, nodup_variableNames, hdocument, document_contents]
  exact ⟨⟨lines, rfl⟩, rfl, Iff.rfl⟩

def ownedPets : Operation where
  name := "ownedPets"
  group := "owners"
  verb := some ⟨"GET"⟩
  path := "/owners/{ownerId}/pets"
  parameters := [⟨.path, "ownerId"⟩, ⟨.query, "limit"⟩]
  body := none
  authentication := .required

private theorem closed_empty : (TypeGraph.ofList []).Closed := by decide

attribute [local instance] Spelling.plain

theorem ownedPets_declares_once :
    (TypeGraph.ofList []).Closed ∧ (∀ b ∈ ownedPets.body, (TypeGraph.ofList []).Has b.type) ∧
    (∀ name ∈ ownedPets.placeholders, IsLegible name) ∧
    Completes (assemble (.ofList []) ⟨.default, 3⟩ ownedPets) .initial fun document _ =>
      (∃ lines, document.contents =
        String.intercalate "\n" ((ownedPets.draft .default).head ownedPets.name ++ lines)) ∧
      (ownedPets.draft .default).declaredNames = ownedPets.variableNames ∧
      ((ownedPets.draft .default).declaredNames.Nodup ↔ ownedPets.NamesApart) := by
  have hlegible : ∀ name ∈ ownedPets.placeholders, IsLegible name := by decide +kernel
  have hbody : ∀ b ∈ ownedPets.body, (TypeGraph.ofList []).Has b.type := by simp [ownedPets]
  exact ⟨closed_empty, hbody, hlegible,
    assemble_declares_once_iff closed_empty hbody hlegible ⟨.default, 3⟩ .initial⟩

def petById : Operation where
  name := "petById"
  group := "pets"
  verb := some ⟨"GET"⟩
  path := "/pets/{id}"
  parameters := [⟨.path, "id"⟩, ⟨.query, "id"⟩, ⟨.query, "limit"⟩]
  body := none
  authentication := .none

/-- The document declares `id` for the path and again for the query. -/
theorem petById_declares_twice :
    Completes (assemble (.ofList []) ⟨.default, 3⟩ petById) .initial fun document _ =>
      (∃ lines, document.contents =
        String.intercalate "\n" ((petById.draft .default).head petById.name ++ lines)) ∧
      (petById.draft .default).declaredNames = ["host", "port", "baseUrl", "id", "id", "limit"] ∧
      ¬(petById.draft .default).declaredNames.Nodup := by
  have hlegible : ∀ name ∈ petById.placeholders, IsLegible name := by decide +kernel
  have hnames : petById.variableNames = ["host", "port", "baseUrl", "id", "id", "limit"] := by
    decide +kernel
  have hbody : petById.bodySection (.ofList []) 3 = pure ([noBodyAllowed], .notApplicable) := rfl
  rw [petById.assemble_eq, hbody, petById.declaredNames_draft .default hlegible, hnames]
  refine .pure ⟨⟨[noBodyAllowed], petById.document_contents .default _ .notApplicable⟩, rfl, ?_⟩
  simp

end Operation

end RequestDocs
