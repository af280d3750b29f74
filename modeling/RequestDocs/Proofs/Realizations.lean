import Mathlib.Data.List.Forall2
import RequestDocs.Proofs.Inheritance
/-!
# Types of schemas

When an id is the type of a schema as its components give it, and that the fields which are found for
such an id are those of the schema.
-/

namespace RequestDocs.OpenApi

/-- What an id may be: the type of a schema, or that of a node with the layer of a schema under a
name. -/
inductive Meaning
  | type (schema : Schema)
  | node (name : Option String) (schema : Schema)

inductive Realizes (c : ApiComponents) (s : LoweringState) : Meaning → TypeId → Prop
  | component {path component id} : Reference.localName? path = .ok (some component) →
      Reference.PointsToSchema path → s.SlotOf component id →
      Realizes c s (.type (.reference path)) id
  | sameAs {schema target id} : schema.shape c = .sameAs target → Realizes c s (.type target) id →
      Realizes c s (.type schema) id
  | own {schema id} : Stands c schema schema → (∀ component, ¬Denotes c schema component) →
      Realizes c s (.node none schema) id → Realizes c s (.type schema) id
  | external {name path id} : Reference.localName? path = .ok none →
      s.graph.get id = .ok (.unknown ("external reference " ++ path)) →
      Realizes c s (.node name (.reference path)) id
  | unresolved {name path component id} : Reference.localName? path = .ok (some component) →
      s.graph.get id = .ok (.unknown ("unresolved reference " ++ path)) →
      Realizes c s (.node name (.reference path)) id
  | leaf {name schema node id} : schema.shape c = .leaf node → s.graph.get id = .ok node →
      Realizes c s (.node name schema) id
  | union {name schema variants ids id} : schema.shape c = .union variants →
      s.graph.get id = .ok (.union name ids) → variants.length = ids.length →
      (∀ entry ∈ variants.zip ids, Realizes c s (.type entry.1) entry.2) →
      Realizes c s (.node name schema) id
  | array {name schema element elementId id} : schema.shape c = .array element →
      s.graph.get id = .ok (.array elementId) → Realizes c s (.type element) elementId →
      Realizes c s (.node name schema) id
  | openArray {name schema kind elementId id} : schema.shape c = .openArray kind →
      s.graph.get id = .ok (.array elementId) → s.graph.get elementId = .ok (.unknown kind) →
      Realizes c s (.node name schema) id
  | record {name schema base members properties copied baseId fields id} :
      schema.shape c = .record base members properties →
      s.graph.get id = .ok (.record name baseId fields) → Keyed (s.SlotOf · id) name →
      base.toList.length = baseId.toList.length →
      (∀ entry ∈ base.toList.zip baseId.toList, Realizes c s (.type entry.1) entry.2) →
      Fields c (.members members) copied → (copied ++ properties).length = fields.length →
      (∀ entry ∈ (copied ++ properties).zip fields, entry.2.name = entry.1.1) →
      (∀ entry ∈ (copied ++ properties).zip fields, Realizes c s (.type entry.1.2) entry.2.type) →
      Realizes c s (.node name schema) id

def RealizesFields (c : ApiComponents) (s : LoweringState) :
    List (String × Schema) → List Field → Prop :=
  List.Forall₂ fun entry field => field.name = entry.1 ∧ Realizes c s (.type entry.2) field.type

variable {c : ApiComponents} {t : Task} {o : Outcome} {s s' s'' : LoweringState}

/-- Nodes that are not pending stay, and ids do not become those of components. -/
structure LoweringState.Grows (s s' : LoweringState) : Prop extends s.Keeps s' where
  old : ∀ name id, s'.SlotOf name id → s.Has id → s.SlotOf name id

namespace LoweringState.Grows

theorem refl (s : LoweringState) : s.Grows s where
  toExtends := .refl s
  get _ _ hnode _ := hnode
  old _ _ hid _ := hid

theorem trans (h : s.Grows s') (h' : s'.Grows s'') : s.Grows s'' where
  toExtends := h.toExtends.trans h'.toExtends
  get id node hnode hne := h'.get id node (h.get id node hnode hne) hne
  old name id hid hhas := h.old name id (h'.old name id hid (h.toExtends.has hhas)) hhas

theorem place {node : TypeNode} {slot : Option TypeId} (hslot : ∀ id ∈ slot, s.Pending id) :
    s.Grows (s.place node slot).2 where
  toKeeps := keeps_place slot hslot
  old name id hid _ := by rwa [SlotOf, place_components] at hid

theorem push (s : LoweringState) (node : TypeNode) : s.Grows (s.push node) := by
  have hplace : s.Grows (s.place node none).2 := place nofun
  exact hplace

theorem put {node : TypeNode} {slot : TypeId} (hslot : s.Pending slot) :
    s.Grows (s.put slot node) := by
  have hplace : s.Grows (s.place node (some slot)).2 := place fun id hid => by
    rwa [← Option.mem_some.1 hid]
  exact hplace

theorem enter {name : String} (hnew : s.components.lookup name = none) (path : String) :
    s.Grows (s.enter name path) where
  toExtends := .enter hnew path
  get id node hnode _ := (get_push (TypeGraph.has_of_get hnode)).trans hnode
  old component id hid hhas := by
    rcases lookup_enter hid with ⟨_, rfl⟩ | ⟨_, hid⟩
    · exact absurd rfl (ne_next_of_has hhas)
    · exact hid

end LoweringState.Grows

theorem Lowers.grows (h : Lowers c t s o s') (hslot : ∀ id ∈ t.slot?, s.Pending id) :
    s.Grows s' where
  toKeeps := h.keeps hslot
  old _ _ := h.lookup_old

theorem LoweringState.Grows.keyed (h : s.Grows s') {name : Option String} {id : TypeId}
    (hid : s.Has id) (hkey : Keyed (s.SlotOf · id) name) : Keyed (s'.SlotOf · id) name := by
  cases name with
  | none => exact fun component hslot => hkey component (h.old component id hslot hid)
  | some component => exact h.lookup component id hkey

theorem Realizes.grows {m : Meaning} {id : TypeId} (h : Realizes c s m id) (hg : s.Grows s') :
    Realizes c s' m id := by
  induction h with
  | component hname hkind hslot => exact .component hname hkind (hg.lookup _ _ hslot)
  | sameAs hshape _ ih => exact .sameAs hshape ih
  | own hstands hdenotes _ ih => exact .own hstands hdenotes ih
  | external hname hnode =>
    exact .external hname (hg.get _ _ hnode (unknown_append_ne_pending (by decide) _))
  | unresolved hname hnode =>
    exact .unresolved hname (hg.get _ _ hnode (unknown_append_ne_pending (by decide) _))
  | leaf hshape hnode =>
    exact .leaf hshape (hg.get _ _ hnode (Schema.settled_shape hshape).2.1)
  | union hshape hnode hlength _ ih => exact .union hshape (hg.get _ _ hnode nofun) hlength ih
  | array hshape hnode _ ih => exact .array hshape (hg.get _ _ hnode nofun) ih
  | openArray hshape hnode helement =>
    exact .openArray hshape (hg.get _ _ hnode nofun)
      (hg.get _ _ helement (Schema.settled_shape hshape))
  | record hshape hnode hkey hbase _ hcopied hlength hnames _ ih₁ ih₂ =>
    exact .record hshape (hg.get _ _ hnode nofun) (hg.keyed (TypeGraph.has_of_get hnode) hkey)
      hbase ih₁ hcopied hlength hnames ih₂

theorem RealizesFields.grows {entries : List (String × Schema)} {fields : List Field}
    (h : RealizesFields c s entries fields) (hg : s.Grows s') : RealizesFields c s' entries fields :=
  List.Forall₂.imp (fun _ _ hfield => ⟨hfield.1, hfield.2.grows hg⟩) h

def LoweringState.Typed (c : ApiComponents) (s : LoweringState) (component : String) (id : TypeId) :
    Prop :=
  ∃ path final, Reference.localName? path = .ok (some component) ∧ Reference.PointsToSchema path ∧
    Stands c (.reference path) final ∧ Realizes c s (.node (some component) final) id

theorem LoweringState.Typed.grows {component : String} {id : TypeId} (h : s.Typed c component id)
    (hg : s.Grows s') : s'.Typed c component id := by
  obtain ⟨path, final, hname, hkind, hstands, hnode⟩ := h
  exact ⟨path, final, hname, hkind, hstands, hnode.grows hg⟩

theorem Realizes.node_of_type {schema : Schema} {id : TypeId} (h : Realizes c s (.type schema) id)
    (htyped : ∀ component, Denotes c schema component → s.SlotOf component id →
      s.Typed c component id) :
    ∃ name final, Keyed (Denotes c schema) name ∧ Stands c schema final ∧
      Realizes c s (.node name final) id := by
  generalize hm : Meaning.type schema = m at h
  induction h generalizing schema with
  | @component path component id hname hkind hslot =>
    cases hm
    obtain ⟨path', final, hname', hkind', hstands, hnode⟩ := htyped component (.reference hname) hslot
    obtain rfl := hkind.unique hkind' hname hname'
    exact ⟨some component, final, .reference hname, hstands, hnode⟩
  | sameAs hshape _ ih =>
    cases hm
    obtain ⟨name, final, hkey, hstands, hnode⟩ := ih
      (fun component hdenotes => htyped component (.sameAs hshape hdenotes)) rfl
    refine ⟨name, final, ?_, .sameAs hshape hstands, hnode⟩
    cases name with
    | none =>
      intro component hdenotes
      cases hdenotes with
      | reference => cases hshape
      | sameAs hshape' hdenotes =>
        cases hshape.symm.trans hshape'
        exact hkey component hdenotes
    | some name => exact .sameAs hshape hkey
  | own hstands hdenotes hnode =>
    cases hm
    exact ⟨none, _, hdenotes, hstands, hnode⟩
  | external | unresolved | leaf | union | array | openArray | record => cases hm

section

variable {g : TypeGraph} {fuel : Nat} {seen : List TypeId} {id : TypeId} {chain : List (List Field)}

private theorem baseChain_of_mem (hid : id ∈ seen) (h : g.baseChain fuel seen id = .ok chain) :
    chain = [] := by
  cases fuel with
  | zero => cases h
  | succ fuel =>
    rw [TypeGraph.baseChain, if_pos hid] at h
    cases h
    rfl

private theorem baseChain_of_not_record {node : TypeNode} (hnode : g.get id = .ok node)
    (hrecord : node.isRecord = false) (h : g.baseChain fuel seen id = .ok chain) : chain = [] := by
  by_cases hid : id ∈ seen
  · exact baseChain_of_mem hid h
  · cases fuel with
    | zero => cases h
    | succ fuel =>
      rw [TypeGraph.baseChain, if_neg hid, hnode] at h
      cases node with
      | record => cases hrecord
      | scalar | literal | union | array | unknown =>
        cases h
        rfl

theorem allFields_of_not_record {node : TypeNode} {fields : List Field} (hnode : g.get id = .ok node)
    (hrecord : node.isRecord = false) (h : g.allFields id = .ok fields) : fields = [] := by
  unfold TypeGraph.allFields at h
  cases hchain : g.baseChain (g.size + 1) [] id with
  | error f =>
    rw [hchain] at h
    cases h
  | ok chain =>
    rw [hchain, baseChain_of_not_record hnode hrecord hchain] at h
    cases h
    rfl

private theorem baseChain_of_record {name : Option String} {baseId : Option TypeId}
    {fields : List Field} (hid : id ∉ seen) (hnode : g.get id = .ok (.record name baseId fields))
    (h : g.baseChain (fuel + 1) seen id = .ok chain) :
    ∃ rest, chain = fields :: rest ∧
      match baseId with
      | none => rest = []
      | some base => g.baseChain fuel (id :: seen) base = .ok rest := by
  rw [TypeGraph.baseChain, if_neg hid, hnode] at h
  cases baseId with
  | none =>
    cases h
    exact ⟨[], rfl, rfl⟩
  | some base =>
    cases hrest : g.baseChain fuel (id :: seen) base with
    | error f =>
      simp only [bind, Except.bind, hrest] at h
      cases h
    | ok rest =>
      simp only [bind, Except.bind, hrest] at h
      cases h
      exact ⟨rest, rfl, hrest⟩

end

theorem isRecord_of_leaf {schema : Schema} {node : TypeNode}
    (h : schema.shape c = .leaf node) : node.isRecord = false := by
  have hrename := (Schema.settled_shape h).2.2
  cases node with
  | record name base fields =>
    have ha := hrename (some "a")
    have hb := hrename (some "b")
    simp [Lowering.rename] at ha hb
    simp [← ha] at hb
  | scalar | literal | union | array | unknown => rfl

def LoweringState.Separate (s : LoweringState) : Prop :=
  ∀ component component' id, s.SlotOf component id → s.SlotOf component' id → component = component'

/-- The components with the property have been lowered, and with them all that they lead to. Of the
others some may be pending. -/
structure LoweringState.Supplies (c : ApiComponents) (p : String → Prop) (s : LoweringState) :
    Prop where
  separate : s.Separate
  known : ∀ component id, s.SlotOf component id → s.Pending id ∨ s.Typed c component id
  filled : ∀ component id, p component → s.SlotOf component id → ¬s.Pending id
  leads : ∀ component component', p component → c.Leads component component' → p component'

def LoweringState.SameSeen (s : LoweringState) (seen : List TypeId) (names : List String) : Prop :=
  ∀ component id, s.SlotOf component id → (id ∈ seen ↔ component ∈ names)

private theorem LoweringState.SameSeen.cons {seen : List TypeId} {names : List String}
    {name : Option String} {id : TypeId} (h : s.SameSeen seen names) (hs : s.Separate)
    (hkey : Keyed (s.SlotOf · id) name) : s.SameSeen (id :: seen) (name.toList ++ names) := by
  intro component i hslot
  have hself : i = id ↔ component ∈ name.toList := by
    cases name with
    | none => exact ⟨fun heq => absurd (heq ▸ hslot) (hkey component), nofun⟩
    | some own =>
      rw [Option.toList_some, List.mem_singleton]
      refine ⟨fun heq => hs _ _ id (heq ▸ hslot) hkey, fun heq => ?_⟩
      subst heq
      exact Option.some.inj (hslot.symm.trans hkey)
  rw [List.mem_cons, List.mem_append, hself, h component i hslot]

section

variable {p : String → Prop} {fuel : Nat} {seen : List TypeId} {names : List String} {id : TypeId}
  {chain : List (List Field)}

private theorem fields_of_base (hs : s.Supplies c p) {path : String} (hseen : s.SameSeen seen names)
    (htype : Realizes c s (.type (.reference path)) id)
    (hdraws : ∀ component, Draws c (.reference path) component → p component)
    (hchain : s.graph.baseChain fuel seen id = .ok chain)
    (hnext : ∀ component final, id ∉ seen → Realizes c s (.node (some component) final) id →
      (∀ component', Draws c final component' → p component') →
      ∃ entries, Fields c (.all (component :: names) final) entries ∧
        RealizesFields c s entries chain.reverse.flatten) :
    ∃ entries, Fields c (.base names (some (.reference path))) entries ∧
      RealizesFields c s entries chain.reverse.flatten := by
  cases htype with
  | sameAs hshape => cases hshape
  | own _ hdenotes hnode =>
    cases hnode with
    | external hname hget =>
      rw [baseChain_of_not_record hget rfl hchain]
      exact ⟨[], .external hname, .nil⟩
    | unresolved hname => exact absurd (.reference hname) (hdenotes _)
    | leaf hshape | union hshape | array hshape | openArray hshape | record hshape => cases hshape
  | @component _ component _ hname hkind hslot =>
    by_cases hmem : id ∈ seen
    · rw [baseChain_of_mem hmem hchain]
      exact ⟨[], .cycle hname ((hseen component id hslot).1 hmem), .nil⟩
    · have hnew : component ∉ names := fun h => hmem ((hseen component id hslot).2 h)
      rcases hs.known component id hslot with hpending | htyped
      · -- A pending component is none to draw from, so it has no fields to be found.
        have hnone : HasNoFields c (.reference path) := by
          by_contra hfields
          exact hs.filled component id (hdraws component (.reference hname hfields)) hslot hpending
        obtain ⟨final, hstands, hfinal⟩ := hnone
        rw [baseChain_of_not_record hpending rfl hchain]
        exact ⟨[], .base hname hnew hstands (.other hfinal), .nil⟩
      · obtain ⟨path', final, hname', hkind', hstands, hnode⟩ := htyped
        obtain rfl := hkind.unique hkind' hname hname'
        obtain ⟨entries, hentries, hfields⟩ :=
          hnext component final hmem hnode (hstands.draws hs.leads hdraws)
        exact ⟨entries, .base hname hnew hstands hentries, hfields⟩

private theorem fields_of_baseChain (hs : s.Supplies c p) {name : Option String} {final : Schema}
    (hseen : s.SameSeen seen names) (hid : id ∉ seen) (hnode : Realizes c s (.node name final) id)
    (hdraws : ∀ component, Draws c final component → p component)
    (hchain : s.graph.baseChain fuel seen id = .ok chain) :
    ∃ entries, Fields c (.all (name.toList ++ names) final) entries ∧
      RealizesFields c s entries chain.reverse.flatten := by
  induction fuel generalizing seen names name final id chain with
  | zero => cases hchain
  | succ fuel ih =>
    have hnone {node : TypeNode} (hget : s.graph.get id = .ok node) (hrecord : node.isRecord = false)
        (hshape : ∀ base members properties, final.shape c ≠ .record base members properties) :
        ∃ entries, Fields c (.all (name.toList ++ names) final) entries ∧
          RealizesFields c s entries chain.reverse.flatten := by
      rw [baseChain_of_not_record hget hrecord hchain]
      exact ⟨[], .other hshape, .nil⟩
    cases hnode with
    | external _ hget | unresolved _ hget => exact hnone hget rfl nofun
    | leaf hshape hget => exact hnone hget (isRecord_of_leaf hshape) (by simp [hshape])
    | union hshape hget | array hshape hget | openArray hshape hget =>
      exact hnone hget rfl (by simp [hshape])
    | @record _ _ base members properties copied baseId fields _ hshape hget hkey hlength hbase hcopied
        hlength' hnames hfields =>
      obtain ⟨rest, rfl, hrest⟩ := baseChain_of_record hid hget hchain
      have hinherited : ∃ inherited, Fields c (.base (name.toList ++ names) base) inherited ∧
          RealizesFields c s inherited rest.reverse.flatten := by
        match base, baseId with
        | none, none =>
          cases hrest
          exact ⟨[], .noBase, .nil⟩
        | none, some _ | some _, none => cases hlength
        | some base, some baseId =>
          obtain ⟨path, rfl⟩ := Schema.exists_path_of_base hshape
          have hseen' := hseen.cons hs.separate hkey
          exact fields_of_base hs hseen' (hbase (_, baseId) List.mem_cons_self)
            (fun component h => hdraws component (.base hshape h)) hrest
            fun component final hmem hnode hdraws => ih hseen' hmem hnode hdraws hrest
      obtain ⟨inherited, hinherited, hrealized⟩ := hinherited
      refine ⟨_, .record hshape hinherited hcopied, ?_⟩
      rw [List.reverse_cons, List.flatten_append, List.flatten_singleton]
      exact List.rel_append hrealized
        (List.forall₂_iff_zip.2 ⟨hlength', fun hmem => ⟨hnames _ hmem, hfields _ hmem⟩⟩)

/-- All fields of a node are those of the schema it has the layer of, if all components that the schema
draws from are supplied. -/
theorem Realizes.allFields (hs : s.Supplies c p) {name : Option String} {final : Schema}
    {fields : List Field} (h : Realizes c s (.node name final) id)
    (hdraws : ∀ component, Draws c final component → p component)
    (hfields : s.graph.allFields id = .ok fields) :
    ∃ entries, Fields c (.all name.toList final) entries ∧ RealizesFields c s entries fields := by
  unfold TypeGraph.allFields at hfields
  cases hchain : s.graph.baseChain (s.graph.size + 1) [] id with
  | error f =>
    rw [hchain] at hfields
    cases hfields
  | ok chain =>
    rw [hchain] at hfields
    cases hfields
    have hseen : s.SameSeen [] [] := fun _ _ _ => by simp
    have hfound := fields_of_baseChain hs hseen List.not_mem_nil h hdraws hchain
    rwa [List.append_nil] at hfound

end

end RequestDocs.OpenApi
