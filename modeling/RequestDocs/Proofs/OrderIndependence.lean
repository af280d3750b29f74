import RequestDocs.Proofs.StuckAliases
import RequestDocs.Proofs.Unfolding
/-!
# Independence of order

While copies are complete, the type of a body does not depend on the bodies lowered before it. A
record that copies the fields of a component on the way to it has fewer fields than by itself.
-/

namespace RequestDocs

def Source.bodies (source : Source) : List (Option Body) :=
  source.services.flatMap fun service => service.operations.map (·.body)

namespace OpenApi

variable {c : ApiComponents} {op : ApiOperation} {ops : List ApiOperation} {s s' s'' : LoweringState}

inductive Described (c : ApiComponents) (op : ApiOperation) (s : LoweringState) : Option Body → Prop
  | missing : c.bodyOf op = .ok none → Described c op s none
  | empty : c.bodyOf op = .ok (some ⟨[]⟩) → Described c op s none
  | unspecified {contentType rest body} :
      c.bodyOf op = .ok (some ⟨(contentType, none) :: rest⟩) →
      s.graph.get body.type = .ok (.unknown "unspecified") → Described c op s (some body)
  | schema {contentType schema rest body} :
      c.bodyOf op = .ok (some ⟨(contentType, some schema) :: rest⟩) →
      Realizes c s (.type schema) body.type → Described c op s (some body)

private theorem Described.grows {body : Option Body} (h : Described c op s body) (hg : s.Grows s') :
    Described c op s' body := by
  cases h with
  | missing hbody => exact .missing hbody
  | empty hbody => exact .empty hbody
  | unspecified hbody hnode =>
    exact .unspecified hbody (hg.get _ _ hnode (by simp [TypeNode.pending]))
  | schema hbody htype => exact .schema hbody (htype.grows hg)

def Api.requests (api : Api) : List ApiOperation := api.operations.map (·.2.2)

structure Api.PointsToSchemas (api : Api) : Prop where
  schemas : ∀ path ∈ api.components.schemaReferences, Reference.PointsToSchema path
  bodies : ∀ op ∈ api.requests, ∀ body, api.components.bodyOf op = .ok (some body) →
    ∀ path ∈ bodyReferences (.object body), Reference.PointsToSchema path

private theorem DescribesBody.described {api : Api} {body : Option Body}
    (hc : api.components.CopiesApart) (hkind : api.PointsToSchemas) (hop : op ∈ api.requests)
    (h : DescribesBody api.components op s body s') (hs : s.Rests api.components)
    (hknit : s.Knit api.components none) :
    s.Grows s' ∧ s'.Knit api.components none ∧ Described api.components op s' body := by
  cases h with
  | missing hbody => exact ⟨.refl s, hknit, .missing hbody⟩
  | empty hbody => exact ⟨.refl s, hknit, .empty hbody⟩
  | unspecified hbody htype =>
    refine ⟨.push _ _, hknit.push _, .unspecified hbody ?_⟩
    rw [htype]
    exact LoweringState.get_push_next
  | @schema _ schema _ _ _ hbody hrun =>
    have hregular : (Task.schema none none schema).Regular api.components :=
      .of_references fun path hpath =>
        hkind.bodies op hop _ hbody path (by simp [bodyReferences, hpath])
    obtain ⟨hknit', htype⟩ := hrun.realizes hc hkind.schemas ⟨hs.starts schema, hregular, hknit⟩ trivial
    exact ⟨hrun.grows noSlot, hknit', .schema hbody htype⟩

private theorem DescribesAll.described {api : Api} {bodies : List (Option Body)}
    (hc : api.components.CopiesApart) (hkind : api.PointsToSchemas) (hops : ops ⊆ api.requests)
    (h : DescribesAll api.components ops s bodies s') (hs : s.Rests api.components)
    (hknit : s.Knit api.components none) : s.Grows s' ∧ s'.Knit api.components none ∧
      List.Forall₂ (fun op body => Described api.components op s' body) ops bodies := by
  induction h with
  | nil => exact ⟨.refl _, hknit, .nil⟩
  | cons hbody _ ih =>
    obtain ⟨hop, hops⟩ := List.cons_subset.1 hops
    obtain ⟨hg, hknit, hdescribed⟩ := hbody.described hc hkind hop hs hknit
    obtain ⟨hg', hknit', hall⟩ := ih hops (hbody.rests hc.aliases hs) hknit
    exact ⟨hg.trans hg', hknit', .cons (hdescribed.grows hg') hall⟩

private theorem exists_getElem {α β : Type} {r : α → β → Prop} {xs : List α} {ys : List β} {i : Nat}
    {x : α} (h : List.Forall₂ r xs ys) (hx : xs[i]? = some x) : ∃ y, ys[i]? = some y ∧ r x y := by
  obtain ⟨hi, rfl⟩ := List.getElem?_eq_some_iff.1 hx
  have hi' : i < ys.length := h.length_eq ▸ hi
  exact ⟨ys[i], List.getElem?_eq_getElem hi', h.get hi hi'⟩

private theorem Described.of_requestBody {op' : ApiOperation} {body : Option Body}
    (h : Described c op s body) (hrequest : op.requestBody = op'.requestBody) :
    Described c op' s body := by
  have hbody : c.bodyOf op = c.bodyOf op' := by simp only [ApiComponents.bodyOf, hrequest]
  cases h with
  | missing h => exact .missing (hbody ▸ h)
  | empty h => exact .empty (hbody ▸ h)
  | unspecified h hnode => exact .unspecified (hbody ▸ h) hnode
  | schema h htype => exact .schema (hbody ▸ h) htype

/-- Two bodies have types that are the same when they are written out, or there is no body. -/
def SameBody (g g' : TypeGraph) : Option Body → Option Body → Prop
  | none, none => True
  | some body, some body' => ∀ depth, Agree (g.unfold depth body.type) (g'.unfold depth body'.type)
  | _, _ => False

private theorem Described.same {body body' : Option Body} (h : Described c op s body)
    (h' : Described c op s' body') (hs : s.Whole c) (hs' : s'.Whole c) :
    SameBody s.graph s'.graph body body' := by
  -- The operation decides the case, so it is the same in both states.
  cases h with
  | missing hbody | empty hbody =>
    cases h' with
    | missing | empty => trivial
    | unspecified hbody' | schema hbody' => cases hbody.symm.trans hbody'
  | unspecified hbody hnode =>
    cases h' with
    | missing hbody' | empty hbody' | schema hbody' => cases hbody.symm.trans hbody'
    | unspecified hbody' hnode' =>
      intro depth
      exact unfold_of_unknown hnode hnode'
  | schema hbody htype =>
    cases h' with
    | missing hbody' | empty hbody' | unspecified hbody' => cases hbody.symm.trans hbody'
    | schema hbody' htype' =>
      cases hbody.symm.trans hbody'
      exact fun depth => htype.unfold hs hs' depth htype'

private theorem Api.LeadsTo.described {api : Api} {source : Source} (h : api.LeadsTo source s)
    (hc : api.components.CopiesApart) (hkind : api.PointsToSchemas) :
    s.Whole api.components ∧
      List.Forall₂ (fun op body => Described api.components op s body) api.requests source.bodies := by
  obtain ⟨service, hservices, hrun⟩ := h.bodies
  have hrests := hrun.rests hc.aliases .initial
  obtain ⟨_, hknit, hall⟩ := hrun.described hc hkind (List.Subset.refl _) .initial .initial
  refine ⟨⟨hrests.inRange, hknit, hrests.pending⟩, ?_⟩
  simpa [Source.bodies, hservices] using hall

/-- While copies are complete, an operation has the same body in the sources of any two APIs with the
same components, whatever their other operations are and in whichever order they stand. -/
theorem Api.sameBody_of_copiesApart [Spelling]
    {api api' : Api} (hcomponents : api'.components = api.components)
    (hapart : api.components.CopiesApart) (hkind : api.PointsToSchemas)
    (hkind' : api'.PointsToSchemas) {source source' : Source} (hsource : api.source = .ok source)
    (hsource' : api'.source = .ok source') {i j : Nat} {op op' : ApiOperation}
    (hop : api.requests[i]? = some op) (hop' : api'.requests[j]? = some op')
    (hrequest : op'.requestBody = op.requestBody) :
    ∃ body body', source.bodies[i]? = some body ∧ source'.bodies[j]? = some body' ∧
      SameBody source.types source'.types body body' := by
  rcases api.source_cases with ⟨_, s, hsource₁, hleads⟩ | ⟨_, hfault, _⟩
  case inr => cases hsource.symm.trans hfault
  cases hsource.symm.trans hsource₁
  rcases api'.source_cases with ⟨_, s', hsource₂, hleads'⟩ | ⟨_, hfault, _⟩
  case inr => cases hsource'.symm.trans hfault
  cases hsource'.symm.trans hsource₂
  -- Both states have types of the schemas that the same components give.
  obtain ⟨hwhole, hall⟩ := hleads.described hapart hkind
  obtain ⟨hwhole', hall'⟩ := hleads'.described (hcomponents ▸ hapart) hkind'
  rw [hcomponents] at hwhole' hall'
  obtain ⟨body, hbody, hdescribed⟩ := exists_getElem hall hop
  obtain ⟨body', hbody', hdescribed'⟩ := exists_getElem hall' hop'
  refine ⟨body, body', hbody, hbody', ?_⟩
  rw [hleads.types, hleads'.types]
  exact hdescribed.same (hdescribed'.of_requestBody hrequest) hwhole hwhole'

private theorem ApiComponents.Regular.pair_pointsToSchemas (hc : c.Regular) {first second : String}
    (hfirst : Reference.PointsToSchema first) (hsecond : Reference.PointsToSchema second) :
    (c.pair first second).PointsToSchemas where
  schemas := hc.kind
  bodies op hop body hbody path hpath := by
    have hops : (c.pair first second).requests = [.referring first, .referring second] := rfl
    rw [hops, List.mem_cons, List.mem_singleton] at hop
    rcases hop with rfl | rfl <;>
    · cases hbody
      simp only [bodyReferences, List.flatMap_cons, List.flatMap_nil, Option.toList_some,
        Schema.references, List.append_nil, List.mem_singleton] at hpath
      subst hpath
      assumption

namespace ApiComponents

def objectOf (properties : List (String × Schema)) : Schema :=
  .object ⟨.single .object, none, [], none⟩ [] [] [] properties .absent

def composed (members : List Schema) : Schema :=
  .object ⟨.absent, none, [], none⟩ members [] [] [] .absent

def linkedItems : ApiComponents where
  schemas := [
    ("Base", objectOf [("id", .constant (.bool true))]),
    ("Item", composed [.reference "#/components/schemas/Base", .reference "#/components/schemas/Link"]),
    ("Link", objectOf [("next", .reference "#/components/schemas/Link")])]
  parameters := []
  requestBodies := []

private theorem linkedItems_names {name : String} {schema : Schema}
    (h : linkedItems.Names name schema) : (name, schema) ∈ linkedItems.schemas := by
  obtain ⟨_, hname, hresolve⟩ := h
  obtain ⟨first, hlookup, hfirst⟩ := lookup_of_resolveSchema hname hresolve
  obtain ⟨before, after, heq, _⟩ := List.lookup_eq_some_iff.1 hlookup
  have hmem : (name, first) ∈ linkedItems.schemas := by simp [heq]
  have hsame : first = schema := by
    simp only [linkedItems, List.mem_cons, Prod.mk.injEq, List.not_mem_nil, or_false] at hmem
    rcases hmem with ⟨_, rfl⟩ | ⟨_, rfl⟩ | ⟨_, rfl⟩ <;> cases hfirst <;> rfl
  exact hsame ▸ hmem

private theorem linkedItems_shape {name : String} {schema : Schema}
    (h : (name, schema) ∈ linkedItems.schemas) :
    ∃ base members properties, schema.shape linkedItems = .record base members properties ∧
      (members = [] ∨ name = "Item" ∧ members = [.reference "#/components/schemas/Link"]) ∧
      ∀ part ∈ base.toList ++ members ++ properties.map (·.2),
        part = .constant (.bool true) ∨ part.path?.isSome := by
  simp only [linkedItems, List.mem_cons, Prod.mk.injEq, List.not_mem_nil, or_false] at h
  rcases h with ⟨rfl, rfl⟩ | ⟨rfl, rfl⟩ | ⟨rfl, rfl⟩
  · exact ⟨none, [], [_], rfl, .inl rfl, by simp⟩
  · exact ⟨some (.reference _), [.reference _], [], rfl, .inr ⟨rfl, rfl⟩, by simp [Schema.path?]⟩
  · exact ⟨none, [], [_], rfl, .inl rfl, by simp [Schema.path?]⟩

private theorem linkedItems_partOf {component : String} {schema : Schema}
    (h : linkedItems.PartOf component schema) :
    (component, schema) ∈ linkedItems.schemas ∨ schema = .constant (.bool true) ∨ schema.path?.isSome := by
  induction h with
  | whole hnames => exact .inl (linkedItems_names hnames)
  | @part schema part _ hpart ih =>
    rcases ih with hmem | rfl | hpath
    · obtain ⟨_, _, _, hshape, _, hparts⟩ := linkedItems_shape hmem
      rw [hshape] at hpart
      exact .inr (hparts _ hpart)
    · cases hpart
    · cases schema with
      | reference => cases hpart
      | object => cases hpath

private theorem linkedItems_leads {name name' : String} (h : linkedItems.Leads name name')
    (hname : name = "Link") : name' = "Link" := by
  obtain ⟨schema, path, hnames, hfollows, hlocal⟩ := h
  have hmem := linkedItems_names hnames
  have hschema : schema = objectOf [("next", .reference "#/components/schemas/Link")] := by
    simpa [linkedItems, hname] using hmem
  subst hschema
  have hpath : path = "#/components/schemas/Link" := by
    simpa [objectOf, Schema.references, Schema.referencesAll, Schema.referencesProperties,
      Schema.referencesItems] using hfollows.mem_references
  subst hpath
  cases hlocal
  rfl

private theorem linkedItems_copiesApart : linkedItems.CopiesApart where
  aliases name schema target hnames hdenotes := by
    obtain ⟨_, _, _, hshape, _⟩ := linkedItems_shape (linkedItems_names hnames)
    cases hdenotes with
    | reference => cases hshape
    | sameAs hsame => cases hshape.symm.trans hsame
  members component schema base members properties hpart hshape member hmember name hdraws := by
    have hitem : component = "Item" ∧ member = .reference "#/components/schemas/Link" := by
      rcases linkedItems_partOf hpart with hmem | rfl | hpath
      · obtain ⟨_, _, _, hshape', hmembers, _⟩ := linkedItems_shape hmem
        cases hshape.symm.trans hshape'
        rcases hmembers with rfl | ⟨rfl, rfl⟩
        · cases hmember
        · exact ⟨rfl, List.mem_singleton.1 hmember⟩
      · cases hshape
      · rw [Schema.path?_of_record hshape] at hpath
        cases hpath
    obtain ⟨rfl, rfl⟩ := hitem
    cases hdraws with
    | reference hname =>
      cases hname
      intro hleads
      have hlink (name : String) (h : Relation.ReflTransGen linkedItems.Leads "Link" name) :
          name = "Link" := by
        induction h with
        | refl => rfl
        | tail _ hlead ih => exact linkedItems_leads hlead ih
      exact absurd (hlink _ hleads) (by decide)
    | sameAs hshape | base hshape => cases hshape

private theorem linkedItems_regular : linkedItems.Regular where
  parse := by decide +kernel
  kind := by
    have hreferences : linkedItems.schemaReferences = ["#/components/schemas/Base",
      "#/components/schemas/Link", "#/components/schemas/Link"] := rfl
    have hbase : Reference.parse? "#/components/schemas/Base" = some ⟨"schemas", "Base"⟩ := by
      decide +kernel
    have hlink : Reference.parse? "#/components/schemas/Link" = some ⟨"schemas", "Link"⟩ := by
      decide +kernel
    simp [Reference.PointsToSchema, hreferences, hbase, hlink]

attribute [local instance] Spelling.plain

theorem linkedItems_sameBody : ∃ source source',
    (linkedItems.pair "#/components/schemas/Link" "#/components/schemas/Item").source = .ok source ∧
      (linkedItems.pair "#/components/schemas/Item" "#/components/schemas/Link").source = .ok source' ∧
      ∃ body body', source.bodies[0]? = some body ∧ source'.bodies[1]? = some body' ∧
        SameBody source.types source'.types body body' := by
  have hlink : Reference.localName? "#/components/schemas/Link" = .ok (some "Link") := rfl
  have hitem : Reference.localName? "#/components/schemas/Item" = .ok (some "Item") := rfl
  have hkind : Reference.PointsToSchema "#/components/schemas/Link" :=
    linkedItems_regular.kind _ (by decide +kernel)
  have hkind' : Reference.PointsToSchema "#/components/schemas/Item" := by
    have hparse : Reference.parse? "#/components/schemas/Item" = some ⟨"schemas", "Item"⟩ := by
      decide +kernel
    simp [Reference.PointsToSchema, hparse]
  have hcomponents (first second first' second' : String) :
      (linkedItems.pair first second).components = (linkedItems.pair first' second').components := rfl
  have hapart (first second : String) : (linkedItems.pair first second).components.CopiesApart :=
    linkedItems_copiesApart
  have hfirst (first second : String) :
      (linkedItems.pair first second).requests[0]? = some (.referring first) := rfl
  have hsecond (first second : String) :
      (linkedItems.pair first second).requests[1]? = some (.referring second) := rfl
  obtain ⟨source, _, hsource, _⟩ := linkedItems_regular.pair_leadsTo hlink hitem
  obtain ⟨source', _, hsource', _⟩ := linkedItems_regular.pair_leadsTo hitem hlink
  refine ⟨source, source', hsource, hsource', ?_⟩
  exact Api.sameBody_of_copiesApart (hcomponents _ _ _ _) (hapart _ _)
    (linkedItems_regular.pair_pointsToSchemas hkind hkind')
    (linkedItems_regular.pair_pointsToSchemas hkind' hkind) hsource hsource' (hfirst _ _)
    (hsecond _ _) rfl

end ApiComponents

private def fieldNames (source : Source) (i : Nat) : Option (List String) := do
  let body ← (← source.bodies[i]?)
  match ← (source.types.unfold 1 body.type).toOption with
  | .record _ fields => return fields.map (·.1)
  | _ => none

private theorem SameBody.fieldNames {source source' : Source} {i j : Nat} {body body' : Option Body}
    (h : SameBody source.types source'.types body body') (hbody : source.bodies[i]? = some body)
    (hbody' : source'.bodies[j]? = some body') : fieldNames source i = fieldNames source' j := by
  cases body with
  | none =>
    cases body' with
    | none => simp [OpenApi.fieldNames, hbody, hbody']
    | some => cases h
  | some body =>
    cases body' with
    | none => cases h
    | some body' =>
      obtain ⟨tree, htree, htree'⟩ := h 1
      simp [OpenApi.fieldNames, hbody, hbody', htree, htree']

private theorem exists_of_fieldNames [Spelling] {api : Api} {i : Nat} {names : List String}
    (h : api.source.toOption.bind (fieldNames · i) = some names) :
    ∃ source body, api.source = .ok source ∧ source.bodies[i]? = some body ∧
      fieldNames source i = some names := by
  obtain ⟨source, hsource, hnames⟩ := Option.bind_eq_some_iff.1 h
  obtain ⟨body, hbody, _⟩ := Option.bind_eq_some_iff.1 hnames
  refine ⟨source, body, ?_, hbody, hnames⟩
  cases hok : api.source with
  | ok =>
    rw [hok] at hsource
    cases hsource
    rfl
  | error =>
    rw [hok] at hsource
    cases hsource

/-- A note has a header, and copies the fields of a mark, which contains the note. -/
def ApiComponents.markedNote : ApiComponents where
  schemas := [
    ("Header", objectOf [("id", .constant (.bool true))]),
    ("Mark", objectOf [("color", .constant (.bool true)), ("note", .reference "#/components/schemas/Note")]),
    ("Note", composed [.reference "#/components/schemas/Header", .reference "#/components/schemas/Mark"])]
  parameters := []
  requestBodies := []

attribute [local instance] Spelling.plain

/-- When the mark is lowered first, the note has no field of it. -/
theorem ApiComponents.markedNote_notSameBody : ∃ source source',
    (markedNote.pair "#/components/schemas/Mark" "#/components/schemas/Note").source = .ok source ∧
      (markedNote.pair "#/components/schemas/Note" "#/components/schemas/Mark").source = .ok source' ∧
      ∃ body body', source.bodies[1]? = some body ∧ source'.bodies[0]? = some body' ∧
        ¬SameBody source.types source'.types body body' := by
  obtain ⟨source, body, hsource, hbody, hnames⟩ :=
    exists_of_fieldNames (show (markedNote.pair "#/components/schemas/Mark"
      "#/components/schemas/Note").source.toOption.bind (fieldNames · 1) = some ["id"] by
      decide +kernel)
  obtain ⟨source', body', hsource', hbody', hnames'⟩ :=
    exists_of_fieldNames (show (markedNote.pair "#/components/schemas/Note"
      "#/components/schemas/Mark").source.toOption.bind (fieldNames · 0) =
        some ["id", "color", "note"] by decide +kernel)
  refine ⟨source, source', hsource, hsource', body, body', hbody, hbody', fun hsame => ?_⟩
  have hequal := hsame.fieldNames hbody hbody'
  rw [hnames, hnames'] at hequal
  cases hequal

end OpenApi

end RequestDocs
