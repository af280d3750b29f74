import RequestDocs.Proofs.Lowerings
import RequestDocs.Proofs.References
/-!
# Runs of lowering

Lowering from a state in range ends as the relation says, or in the fault of a malformed reference:
it looks up no foreign id, and its bound is out of reach, because every component under construction
is one fewer that may still be entered.
-/

namespace RequestDocs.OpenApi

variable {c : ApiComponents} {R : List String} {fuel : Nat}

def ApiComponents.missing (c : ApiComponents) (s : LoweringState) : Nat :=
  c.schemas.countP fun entry => (s.components.lookup entry.1).isNone

theorem ApiComponents.missing_le_length (c : ApiComponents) (s : LoweringState) :
    c.missing s ≤ c.schemas.length := List.countP_le_length

theorem LoweringState.Extends.missing_le {s s' : LoweringState} (h : s.Extends s') :
    c.missing s' ≤ c.missing s := by
  refine List.countP_mono_left fun entry _ hnone => ?_
  cases hs : s.components.lookup entry.1 with
  | none => rfl
  | some id =>
    rw [h.lookup entry.1 id hs] at hnone
    cases hnone

private theorem isNone_lookup_enter {s : LoweringState} {name path : String} (name' : String)
    (h : ((s.enter name path).components.lookup name').isNone) :
    name' ≠ name ∧ (s.components.lookup name').isNone := by
  simp only [LoweringState.enter, List.lookup_cons] at h
  split at h
  · cases h
  · next hne => exact ⟨fun heq => by simp [heq] at hne, h⟩

private theorem missing_enter_lt {s : LoweringState} {name path : String} {schema : Schema}
    (hnew : s.components.lookup name = none) (hmem : (name, schema) ∈ c.schemas) :
    c.missing (s.enter name path) < c.missing s := by
  obtain ⟨before, after, heq⟩ := List.append_of_mem hmem
  have hle (l : List (String × Schema)) :
      l.countP (fun entry => ((s.enter name path).components.lookup entry.1).isNone) ≤
        l.countP fun entry => (s.components.lookup entry.1).isNone :=
    List.countP_mono_left fun entry _ h => (isNone_lookup_enter entry.1 h).2
  have hself : ¬((s.enter name path).components.lookup name).isNone :=
    fun h => (isNone_lookup_enter name h).1 rfl
  have hbefore := hle before
  have hafter := hle after
  simp only [ApiComponents.missing, heq, List.countP_append, List.countP_cons, hself, hnew,
    Option.isNone_none, if_true, Bool.false_eq_true, if_false]
  omega

/-- The step ends as the task does, from any state in which it has room for the components that are
missing. -/
def Yields (c : ApiComponents) (R : List String) (fuel : Nat) {α : Type} (step : Lowering α)
    (t : Task) (out : α → Outcome) : Prop :=
  ∀ s, s.InRange → c.missing s ≤ fuel → (∀ id ∈ t.slot?, s.Has id) →
    Ends (MalformedIn R) step s fun a s' => Lowers c t s (out a) s'

variable {α β : Type} {s : LoweringState}

theorem Yields.bind {step : Lowering α} {next : α → Lowering β} {t : Task} {out : α → Outcome}
    {post : β → LoweringState → Prop} (h : Yields c R fuel step t out) (hs : s.InRange)
    (hfuel : c.missing s ≤ fuel) (hslot : ∀ id ∈ t.slot?, s.Has id)
    (hnext : ∀ a s', Lowers c t s (out a) s' → s'.InRange → (∀ id ∈ (out a).ids, s'.Has id) →
      c.missing s' ≤ fuel → Ends (MalformedIn R) (next a) s' post) :
    Ends (MalformedIn R) (step >>= next) s post := by
  refine .bind (h s hs hfuel hslot) fun a s' hrun => ?_
  obtain ⟨hs', hids⟩ := hrun.inRange hs hslot
  exact hnext a s' hrun hs' hids (Nat.le_trans hrun.extends.missing_le hfuel)

namespace Lowering

variable {fault : Fault → Prop}

private theorem add_ends {node : TypeNode} {post : TypeId → LoweringState → Prop}
    (h : post s.next (s.push node)) : Ends fault (add node) s post := h

private theorem replace_ends {id : TypeId} (hid : s.Has id) {node : TypeNode}
    {post : Unit → LoweringState → Prop} (h : post ⟨⟩ (s.put id node)) :
    Ends fault (replace id node) s post := by
  have hok : s.graph.replace id node = .ok (s.put id node).graph := if_pos hid
  refine .get_bind (.lift_bind ⟨_, hok, rfl⟩ ?_)
  rintro _ rfl
  exact .set h

private theorem place_ends {slot : Option TypeId} (hslot : ∀ id ∈ slot, s.Has id)
    {node : TypeNode} {post : TypeId → LoweringState → Prop}
    (h : post (s.place node slot).1 (s.place node slot).2) :
    Ends fault (place node slot) s post := by
  cases slot with
  | none => exact add_ends h
  | some slot =>
    exact .bind (M := fun _ t => t = s.put slot node) (replace_ends (hslot slot rfl) rfl)
      fun _ _ ht => ht ▸ .pure h

private theorem fieldsOf_ends (hs : s.InRange) {id : TypeId} (hid : s.Has id) :
    Ends fault (fieldsOf id) s fun fields t => s.graph.allFields id = .ok fields ∧ t = s := by
  obtain ⟨fields, heq, _⟩ := hs.closed.allFields_ok hid
  exact .get_bind (.lift ⟨fields, heq, rfl⟩ fun _ h => h ▸ ⟨heq, rfl⟩)

/-- Components are lowered as the relation says while at most `fuel` are missing. -/
private def Expands (c : ApiComponents) (R : List String) (fuel : Nat)
    (expand : String → TypeId → Schema → Lowering TypeId) : Prop :=
  ∀ name slot target s, target.references ⊆ R → s.InRange → c.missing s < fuel → s.Has slot →
    Ends (MalformedIn R) (expand name slot target) s fun id s' =>
      Lowers c (.schema (some name) (some slot) target) s (.type id) s'

variable {expand : String → TypeId → Schema → Lowering TypeId}

private theorem lowerReference_yields (hexpand : Expands c R fuel expand) (hR : c.schemaReferences ⊆ R)
    {path : String} (hpath : path ∈ R) (name : Option String) (slot : Option TypeId) :
    Yields c R fuel (lowerReference c expand path) (.schema name slot (.reference path)) .type := by
  intro s hs hfuel _
  refine .lift_cases (fun f hf => (Reference.localName_error hf).mono (by simpa using hpath)) ?_
  intro component? hname
  cases component? with
  | none => exact add_ends (.external hname)
  | some component =>
    refine .get_bind ?_
    cases hlookup : s.components.lookup component with
    | some id => exact .pure (.known hname hlookup)
    | none =>
      have hnext : (s.enter component path).Has s.next := LoweringState.InRange.has_next
      refine .bind (M := fun slot t => slot = s.next ∧ t = s.enter component path) ⟨rfl, rfl⟩ ?_
      rintro _ _ ⟨rfl, rfl⟩
      refine .lift_cases (fun f hf => ?_) fun target? hresolve => ?_
      · refine (ApiComponents.resolveSchema_error hf).mono (List.append_subset.2 ⟨?_, hR⟩)
        simpa [Schema.references] using hpath
      cases target? with
      | none =>
        refine place_ends (by rintro _ ⟨⟩; exact hnext) ?_
        exact .unresolved hname hlookup hresolve
      | some target =>
        obtain ⟨schema, hmem⟩ := ApiComponents.mem_of_resolveSchema hname hresolve
        have hlt : c.missing (s.enter component path) < c.missing s := missing_enter_lt hlookup hmem
        have href := List.Subset.trans (ApiComponents.references_of_resolveSchema hresolve) hR
        refine (hexpand component s.next target (s.enter component path) href (hs.enter _ _)
          (Nat.lt_of_lt_of_le hlt hfuel) hnext).mono fun id s' hrun => ?_
        obtain rfl := hrun.type_eq_slot (resolveIn_ok hresolve).1
        exact .entered hname hlookup hresolve hrun

private theorem copyTo_ends {name : Option String} {slot : Option TypeId} {schema target : Schema}
    {s s' : LoweringState} {id : TypeId} (hshape : schema.shape c = .sameAs target)
    (hrun : Lowers c (.schema none none target) s (.type id) s') (hs : s.InRange)
    (hslot : ∀ id ∈ slot, s.Has id) : Ends fault (copyTo name slot id) s' fun id' s'' =>
      Lowers c (.schema name slot schema) s (.type id') s'' := by
  obtain ⟨_, hids⟩ := hrun.inRange hs nofun
  unfold copyTo
  cases slot with
  | none => exact .pure (.through hshape hrun)
  | some slot =>
    refine .ite (fun heq => ?_) fun hne => ?_
    · subst heq
      exact .pure (.ownSlot hshape hrun)
    · refine .get_bind (.lift_bind (TypeGraph.get_ok (hids id List.mem_cons_self)) ?_)
      intro node hnode
      have hslot' : ∀ i ∈ some slot, s'.Has i := fun i hi => hrun.extends.has (hslot i hi)
      exact place_ends hslot' (.copy hshape hrun hne hnode)

private theorem mapM_yields {step : α → Lowering TypeId} {schema : α → Schema} (xs : List α)
    (h : ∀ x ∈ xs, Yields c R fuel (step x) (.schema none none (schema x)) .type) :
    Yields c R fuel (xs.mapM step) (.each (xs.map schema)) .types := by
  induction xs with
  | nil => exact fun _ _ _ _ => .pure .eachNil
  | cons x xs ih =>
    intro s hs hfuel _
    rw [List.mapM_cons]
    refine (h x List.mem_cons_self).bind hs hfuel nofun fun id s₁ hrun hs₁ _ hfuel₁ => ?_
    have hrest := ih fun x' hx' => h x' (List.mem_cons_of_mem x hx')
    refine hrest.bind hs₁ hfuel₁ nofun fun ids s₂ hruns _ _ _ => ?_
    exact .pure (.eachCons hrun hruns)

/-- A record or composition has its id before anything it is made of is lowered. -/
private theorem reserved_yields {name : Option String} {slot : Option TypeId} {schema : Schema}
    {base : Option Schema} {members : List Schema} {properties : List (String × Schema)}
    {body : TypeId → Lowering TypeId} (hshape : schema.shape c = .record base members properties)
    (hbody : ∀ slot, Yields c R fuel (body slot) (.schema name (some slot) schema) .type) :
    Yields c R fuel ((slot.map pure).getD reserve >>= body) (.schema name slot schema) .type := by
  intro s hs hfuel hslot
  cases slot with
  | some slot => exact hbody slot s hs hfuel hslot
  | none =>
    refine .bind (M := fun slot t => slot = s.next ∧ t = s.push .pending) ⟨rfl, rfl⟩ ?_
    rintro _ _ ⟨rfl, rfl⟩
    have hnext : ∀ id ∈ some s.next, (s.push .pending).Has id := by
      rintro _ ⟨⟩
      exact LoweringState.InRange.has_next
    have hfuel' := Nat.le_trans (LoweringState.Extends.push s .pending).missing_le hfuel
    refine (hbody s.next _ (hs.push .pending nofun) hfuel' hnext).mono fun id s' hrun => ?_
    obtain rfl := hrun.type_eq_slot (Schema.path?_of_record hshape)
    exact .reserve hshape hrun

private def YieldsFields (c : ApiComponents) (R : List String) (fuel : Nat)
    (step : Lowering (List Field)) (properties : List (String × Schema)) : Prop :=
  ∀ s, s.InRange → c.missing s ≤ fuel → Ends (MalformedIn R) step s fun own s' =>
    Lowers c (.each (properties.map (·.2))) s (.types (own.map (·.type))) s' ∧
      own.map (·.name) = properties.map (·.1)

private theorem lowerRecord_yields {own : Lowering (List Field)} {schema : Schema}
    {properties : List (String × Schema)} (hshape : schema.shape c = .record none [] properties)
    (hown : YieldsFields c R fuel own properties) (name : Option String) (slot : Option TypeId) :
    Yields c R fuel (lowerRecord own name slot) (.schema name slot schema) .type := by
  refine reserved_yields hshape fun slot s hs hfuel hslot => ?_
  refine .bind (hown s hs hfuel) fun fields s' ⟨hrun, hnames⟩ => ?_
  have hslot' : s'.Has slot := hrun.extends.has (hslot slot rfl)
  refine .bind (M := fun _ t => t = _) (replace_ends hslot' rfl) ?_
  rintro _ _ rfl
  exact .pure (.record hshape .eachNil .membersNil hrun hnames)

private theorem openArray_yields {kind : String} {schema : Schema}
    (hshape : schema.shape c = .openArray kind) (name : Option String) (slot : Option TypeId) :
    Yields c R fuel (lowerArray (add (.unknown kind)) slot) (.schema name slot schema) .type := by
  intro s _ _ hslot
  refine .bind (M := fun id t => id = s.next ∧ t = s.push _) ⟨rfl, rfl⟩ ?_
  rintro _ _ ⟨rfl, rfl⟩
  refine place_ends (fun i hi => ?_) (.openArray hshape)
  exact (LoweringState.Extends.push _ _).has (hslot i hi)

private theorem array_yields {element : Lowering TypeId} {schema only : Schema}
    (hshape : schema.shape c = .array only)
    (helement : Yields c R fuel element (.schema none none only) .type) (name : Option String)
    (slot : Option TypeId) :
    Yields c R fuel (lowerArray element slot) (.schema name slot schema) .type := by
  intro s hs hfuel hslot
  refine helement.bind hs hfuel nofun fun id s' hrun _ _ _ => ?_
  exact place_ends (fun i hi => hrun.extends.has (hslot i hi)) (.array hshape hrun)

private theorem lowerEnum_yields {facts : SchemaFacts} {schema : Schema}
    (hshape : schema.shape c = facts.enumShape) (name : Option String) (slot : Option TypeId) :
    Yields c R fuel (lowerEnum facts.enumValues name slot) (.schema name slot schema) .type := by
  intro s hs hfuel hslot
  unfold SchemaFacts.enumShape at hshape
  unfold lowerEnum
  generalize facts.enumValues.filter (!·.isNull) = values at hshape ⊢
  have hvalues : Yields c R fuel (values.mapM fun value => add (.literal value))
      (.each (values.map Schema.constant)) .types :=
    mapM_yields _ fun _ _ _ _ _ _ => add_ends (.leaf_new rfl)
  refine hvalues.bind hs hfuel nofun fun ids s' hrun _ _ _ => ?_
  have hslot' : ∀ id ∈ slot, s'.Has id := fun id hid => hrun.extends.has (hslot id hid)
  cases values with
  | nil =>
    cases hrun
    exact place_ends hslot' (.leaf hshape)
  | cons value values =>
    cases hrun
    exact place_ends hslot' (.union hshape (.eachCons ‹_› ‹_›))

section

variable {facts : SchemaFacts} {properties : List (String × Schema)}
    {items : Items Schema} {record : Option String → Option TypeId → Lowering TypeId}
    {array : Option TypeId → Lowering TypeId}
    (hrecord : ∀ schema : Schema, schema.shape c = .record none [] properties →
      ∀ name slot, Yields c R fuel (record name slot) (.schema name slot schema) .type)
    (harray : ∀ schema : Schema, schema.shape c = items.shape →
      ∀ name slot, Yields c R fuel (array slot) (.schema name slot schema) .type)

include hrecord harray

private theorem lowerType_yields {schema : Schema} {type : SchemaType}
    (hshape : schema.shape c = facts.typeShape properties items type) (name : Option String)
    (slot : Option TypeId) :
    Yields c R fuel (lowerType facts record array name slot type) (.schema name slot schema)
      .type := by
  cases type with
  | object => exact hrecord schema hshape name slot
  | array => exact harray schema hshape name slot
  | null | string | boolean | integer | number =>
    exact fun _ _ _ hslot => place_ends hslot (.leaf hshape)

private theorem lowerTypes_yields {schema : Schema}
    (hshape : schema.shape c = facts.typesShape properties items) (name : Option String)
    (slot : Option TypeId) :
    Yields c R fuel (lowerTypes facts record array (!properties.isEmpty) name slot)
      (.schema name slot schema) .type := by
  unfold SchemaFacts.typesShape at hshape
  unfold lowerTypes
  match hdeclared : facts.types.declared with
  | [] =>
    simp only [hdeclared] at hshape
    cases hempty : properties.isEmpty with
    | true =>
      rw [hempty] at hshape
      exact fun _ _ _ hslot => place_ends hslot (.leaf hshape)
    | false =>
      rw [hempty] at hshape
      exact hrecord schema hshape name slot
  | [type] =>
    simp only [hdeclared] at hshape
    exact lowerType_yields hrecord harray hshape name slot
  | type :: type' :: types =>
    simp only [hdeclared] at hshape
    intro s hs hfuel hslot
    have hvariants : Yields c R fuel
        ((type :: type' :: types).mapM (lowerType facts record array none none))
        (.each ((type :: type' :: types).map (Schema.ofType facts properties items))) .types :=
      mapM_yields _ fun type _ => lowerType_yields hrecord harray rfl none none
    refine hvariants.bind hs hfuel nofun fun ids s' hrun _ _ _ => ?_
    exact place_ends (fun id hid => hrun.extends.has (hslot id hid)) (.union hshape hrun)

end

private theorem isNullAlternative_bind {alternative : Schema} {next : Bool → Lowering β}
    {post : β → LoweringState → Prop} (hR : alternative.references ++ c.schemaReferences ⊆ R)
    (hnext : Ends (MalformedIn R) (next (c.addsNull alternative)) s post) :
    Ends (MalformedIn R) (isNullAlternative c alternative >>= next) s post := by
  unfold ApiComponents.addsNull at hnext
  unfold isNullAlternative
  cases hresolve : c.resolveSchema alternative with
  | error f => exact (ApiComponents.resolveSchema_error hresolve).mono hR
  | ok target? =>
    rw [hresolve] at hnext
    cases target? with
    | none => exact hnext
    | some target => exact hnext

private theorem each_append {xs ys : List Schema} {s s₁ s₂ : LoweringState} {ids ids' : List TypeId}
    (h : Lowers c (.each xs) s (.types ids) s₁) (h' : Lowers c (.each ys) s₁ (.types ids') s₂) :
    Lowers c (.each (xs ++ ys)) s (.types (ids ++ ids')) s₂ := by
  induction xs generalizing s ids with
  | nil =>
    cases h
    exact h'
  | cons x xs ih =>
    cases h with
    | eachCons hx hxs => exact .eachCons hx (ih hxs)

private theorem union_ends {name : Option String} {slot : Option TypeId} {schema : Schema}
    {variants : List Schema} {properties : List (String × Schema)} {s s' : LoweringState}
    {ids : List TypeId} (hshape : schema.shape c = unionShape variants (!properties.isEmpty))
    (hrun : Lowers c (.each variants) s (.types ids) s') (hs : s.InRange)
    (hslot : ∀ id ∈ slot, s.Has id) :
    Ends (MalformedIn R) (match ids, properties.isEmpty with
      | [only], true => copyTo name slot only
      | _, _ => place (.union name ids) slot) s'
      fun id s'' => Lowers c (.schema name slot schema) s (.type id) s'' := by
  have hslot' : ∀ id ∈ slot, s'.Has id := fun id hid => hrun.extends.has (hslot id hid)
  match variants, ids, hrun.length_eq with
  | [], [], _ => exact place_ends hslot' (.union hshape hrun)
  | [variant], [id], _ =>
    cases hempty : properties.isEmpty with
    | true =>
      rw [hempty] at hshape
      cases hrun with
      | eachCons hvariant hnil =>
        cases hnil
        exact copyTo_ends hshape hvariant hs hslot
    | false =>
      rw [hempty] at hshape
      exact place_ends hslot' (.union hshape hrun)
  | _ :: _ :: _, _ :: _ :: _, _ => exact place_ends hslot' (.union hshape hrun)

private theorem base_yields (hexpand : Expands c R fuel expand) (hR : c.schemaReferences ⊆ R)
    (members : List Schema) (hmembers : Schema.referencesAll members ⊆ R) :
    Yields c R fuel ((members.findSome? (·.path?)).mapM (lowerReference c expand))
      (.each (members.find? Schema.isReference).toList) (fun base => .types base.toList) := by
  induction members with
  | nil => exact fun _ _ _ _ => .pure .eachNil
  | cons member members ih =>
    obtain ⟨hmember, hrest⟩ := List.append_subset.1 hmembers
    cases member with
    | object => exact ih hrest
    | reference path =>
      intro s hs hfuel _
      have hpath : path ∈ R := hmember (by simp [Schema.references])
      have hbase := lowerReference_yields hexpand hR hpath none none
      refine hbase.bind hs hfuel noSlot fun id s' hrun _ _ _ => ?_
      exact .pure (.eachCons hrun .eachNil)

private theorem members_of_base {members : List Schema} {base : Option TypeId} {s s' : LoweringState}
    (h : Lowers c (.each (members.find? Schema.isReference).toList) s (.types base.toList) s') :
    (if base.isSome then members.eraseP Schema.isReference else members) =
      members.eraseP Schema.isReference := by
  have hlength := h.length_eq
  cases base with
  | some id => rfl
  | none =>
    cases hfind : members.find? Schema.isReference with
    | some base => simp [hfind] at hlength
    | none => exact (List.eraseP_of_forall_not fun m hm => List.find?_eq_none.1 hfind m hm).symm

private theorem composition_yields (hexpand : Expands c R fuel expand) (hR : c.schemaReferences ⊆ R)
    {schema : Schema} {members : List Schema} {properties : List (String × Schema)}
    (hreferences : Schema.referencesAll members ⊆ R)
    (hshape : schema.shape c = .record (members.find? Schema.isReference)
      (members.eraseP Schema.isReference) properties)
    (hmembers : ∀ hasBase : Bool, Yields c R fuel (lowerMembers c expand hasBase members)
      (.members (if hasBase then members.eraseP Schema.isReference else members)) .fields)
    (hown : YieldsFields c R fuel (lowerProperties c expand properties) properties)
    (name : Option String) (slot : Option TypeId) :
    Yields c R fuel (do
      let slot ← (slot.map pure).getD reserve
      let base ← (members.findSome? (·.path?)).mapM (lowerReference c expand)
      let inherited ← lowerMembers c expand base.isSome members
      let own ← lowerProperties c expand properties
      replace slot (.record name base (inherited ++ own))
      return slot) (.schema name slot schema) .type := by
  refine reserved_yields hshape fun slot s hs hfuel hslot => ?_
  have hbase := base_yields hexpand hR members hreferences
  refine hbase.bind hs hfuel nofun fun base s₁ hrun₁ hs₁ _ hfuel₁ => ?_
  refine (hmembers base.isSome).bind hs₁ hfuel₁ nofun fun inherited s₂ hrun₂ hs₂ _ hfuel₂ => ?_
  refine .bind (hown s₂ hs₂ hfuel₂) fun own s₃ ⟨hrun₃, hnames⟩ => ?_
  have hext := (hrun₁.extends.trans hrun₂.extends).trans hrun₃.extends
  refine .bind (M := fun _ t => t = _) (replace_ends (hext.has (hslot slot rfl)) rfl) ?_
  rintro _ _ rfl
  rw [members_of_base hrun₁] at hrun₂
  have hrecord : Lowers c (.schema name (some slot) schema) s (.type slot)
      (s₃.put slot (.record name base.toList.head? (inherited ++ own))) :=
    .record hshape hrun₁ hrun₂ hrun₃ hnames
  rw [Option.head?_toList] at hrecord
  exact .pure hrecord

private theorem plain_yields {facts : SchemaFacts} {oneOf anyOf : List Schema}
    {properties : List (String × Schema)} {items : Items Schema}
    (hone : Yields c R fuel (lowerAlternatives c expand oneOf) (.each (c.variants oneOf)) .types)
    (hany : Yields c R fuel (lowerAlternatives c expand anyOf) (.each (c.variants anyOf)) .types)
    (hown : YieldsFields c R fuel (lowerProperties c expand properties) properties)
    (harray : ∀ schema : Schema, schema.shape c = items.shape → ∀ name slot,
      Yields c R fuel (lowerArray (lowerItems c expand items) slot) (.schema name slot schema)
        .type)
    (name : Option String) (slot : Option TypeId) :
    Yields c R fuel (lower c expand name slot (.object facts [] oneOf anyOf properties items))
      (.schema name slot (.object facts [] oneOf anyOf properties items)) .type := by
  rw [lower.eq_def]
  dsimp only
  split
  · next henum =>
    exact lowerEnum_yields (by simp only [Schema.shape, henum, if_true]) name slot
  · next henum =>
    split
    · next value hconst =>
      have hshape : Schema.shape c (.object facts [] oneOf anyOf properties items) =
          .leaf (.literal value) := by simp [Schema.shape, henum, hconst]
      exact fun _ _ _ hslot => place_ends hslot (.leaf hshape)
    · next hconst =>
      split
      · next hnone =>
        refine lowerTypes_yields (fun _ hshape => lowerRecord_yields hshape hown) harray ?_ name slot
        simp [Schema.shape, henum, hconst, hnone]
      · next hsome =>
        have hshape : Schema.shape c (.object facts [] oneOf anyOf properties items) =
            unionShape (c.variants (oneOf ++ anyOf)) (!properties.isEmpty) := by
          simp [Schema.shape, henum, hconst, hsome]
        intro s hs hfuel hslot
        refine hone.bind hs hfuel noSlot fun ids s₁ hrun₁ hs₁ _ hfuel₁ => ?_
        refine hany.bind hs₁ hfuel₁ noSlot fun ids' s₂ hrun₂ _ _ _ => ?_
        refine union_ends hshape ?_ hs hslot
        rw [ApiComponents.variants, List.filter_append]
        exact each_append hrun₁ hrun₂

private theorem single_yields (hexpand : Expands c R fuel expand) (hR : c.schemaReferences ⊆ R)
    {facts : SchemaFacts} {only : Schema} {oneOf anyOf : List Schema}
    {properties : List (String × Schema)} {items : Items Schema} (hreferences : only.references ⊆ R)
    (honly : Yields c R fuel (lower c expand none none only) (.schema none none only) .type)
    (hmembers : ∀ hasBase : Bool, Yields c R fuel (lowerMembers c expand hasBase [only])
      (.members (if hasBase then [only].eraseP Schema.isReference else [only])) .fields)
    (hown : YieldsFields c R fuel (lowerProperties c expand properties) properties)
    (name : Option String) (slot : Option TypeId) :
    Yields c R fuel (lower c expand name slot (.object facts [only] oneOf anyOf properties items))
      (.schema name slot (.object facts [only] oneOf anyOf properties items)) .type := by
  rw [lower.eq_def]
  dsimp only
  cases hempty : properties.isEmpty with
  | true =>
    have hshape : Schema.shape c (.object facts [only] oneOf anyOf properties items) =
        .sameAs only := by simp only [Schema.shape, hempty]
    intro s hs hfuel hslot
    refine honly.bind hs hfuel noSlot fun id s' hrun _ _ _ => ?_
    exact copyTo_ends hshape hrun hs hslot
  | false =>
    have hshape : Schema.shape c (.object facts [only] oneOf anyOf properties items) =
        .record ([only].find? Schema.isReference) ([only].eraseP Schema.isReference)
          properties := by simp only [Schema.shape, hempty]
    exact composition_yields hexpand hR (by simpa [Schema.referencesAll] using hreferences) hshape
      hmembers hown name slot

mutual

private theorem lower_yields (hexpand : Expands c R fuel expand) (hR : c.schemaReferences ⊆ R)
    (schema : Schema) (hschema : schema.references ⊆ R) (name : Option String)
    (slot : Option TypeId) :
    Yields c R fuel (lower c expand name slot schema) (.schema name slot schema) .type := by
  match schema, hschema with
  | .reference path, hschema =>
    exact lowerReference_yields hexpand hR (hschema (by simp [Schema.references])) name slot
  | .object facts [] oneOf anyOf properties items, hschema =>
    simp only [Schema.references, List.append_subset] at hschema
    obtain ⟨⟨⟨⟨_, honeOf⟩, hanyOf⟩, hproperties⟩, hitems⟩ := hschema
    exact plain_yields (lowerAlternatives_yields hexpand hR oneOf honeOf)
      (lowerAlternatives_yields hexpand hR anyOf hanyOf)
      (lowerProperties_yields hexpand hR properties hproperties)
      (lowerItems_yields hexpand hR items hitems) name slot
  | .object facts [only] oneOf anyOf properties items, hschema =>
    simp only [Schema.references, List.append_subset] at hschema
    obtain ⟨⟨⟨⟨hallOf, _⟩, _⟩, hproperties⟩, _⟩ := hschema
    have honly : only.references ⊆ R := by simpa [Schema.referencesAll] using hallOf
    exact single_yields hexpand hR honly (lower_yields hexpand hR only honly none none)
      (fun hasBase => lowerMembers_yields hexpand hR hasBase [only] hallOf)
      (lowerProperties_yields hexpand hR properties hproperties) name slot
  | .object facts (member :: member' :: members) oneOf anyOf properties items, hschema =>
    simp only [Schema.references, List.append_subset] at hschema
    obtain ⟨⟨⟨⟨hallOf, _⟩, _⟩, hproperties⟩, _⟩ := hschema
    exact composition_yields hexpand hR hallOf rfl
      (fun hasBase => lowerMembers_yields hexpand hR hasBase (member :: member' :: members) hallOf)
      (lowerProperties_yields hexpand hR properties hproperties) name slot
termination_by sizeOf schema

private theorem lowerItems_yields (hexpand : Expands c R fuel expand) (hR : c.schemaReferences ⊆ R)
    (items : Items Schema) (hitems : Schema.referencesItems items ⊆ R) (schema : Schema)
    (hshape : schema.shape c = items.shape) (name : Option String) (slot : Option TypeId) :
    Yields c R fuel (lowerArray (lowerItems c expand items) slot) (.schema name slot schema)
      .type := by
  cases items with
  | absent | boolean => exact openArray_yields hshape name slot
  | schema only => exact array_yields hshape (lower_yields hexpand hR only hitems none none) name slot
termination_by sizeOf items

private theorem lowerMembers_yields (hexpand : Expands c R fuel expand) (hR : c.schemaReferences ⊆ R)
    (hasBase : Bool) (members : List Schema) (hmembers : Schema.referencesAll members ⊆ R) :
    Yields c R fuel (lowerMembers c expand hasBase members)
      (.members (if hasBase then members.eraseP Schema.isReference else members)) .fields := by
  cases members with
  | nil =>
    have heq : (if hasBase then [].eraseP Schema.isReference else []) = [] := by simp
    rw [heq]
    exact fun _ _ _ _ => .pure .membersNil
  | cons member members =>
    obtain ⟨hmember, hrest⟩ := List.append_subset.1 hmembers
    rw [lowerMembers]
    split
    · next hskip =>
      obtain ⟨rfl, href⟩ := Bool.and_eq_true_iff.1 hskip
      have hmembers := lowerMembers_yields hexpand hR false members hrest
      rw [if_pos rfl, List.eraseP_cons_of_pos (p := Schema.isReference) href]
      exact hmembers
    · next hkeep =>
      have hfirst := lower_yields hexpand hR member hmember none none
      have hrest := lowerMembers_yields hexpand hR hasBase members hrest
      have heq : (if hasBase then (member :: members).eraseP Schema.isReference
          else member :: members) =
          member :: (if hasBase then members.eraseP Schema.isReference else members) := by
        cases hasBase with
        | false => rfl
        | true => exact List.eraseP_cons_of_neg (p := Schema.isReference) hkeep
      rw [heq]
      intro s hs hfuel _
      refine hfirst.bind hs hfuel nofun fun id s₁ hrun hs₁ hids hfuel₁ => ?_
      refine .bind (fieldsOf_ends hs₁ (hids id List.mem_cons_self)) ?_
      rintro fields _ ⟨hfields, rfl⟩
      refine hrest.bind hs₁ hfuel₁ nofun fun rest s₂ hruns _ _ _ => ?_
      exact .pure (.membersCons hrun hfields hruns)
termination_by sizeOf members

private theorem lowerAlternatives_yields (hexpand : Expands c R fuel expand)
    (hR : c.schemaReferences ⊆ R) (alternatives : List Schema)
    (halternatives : Schema.referencesAll alternatives ⊆ R) :
    Yields c R fuel (lowerAlternatives c expand alternatives) (.each (c.variants alternatives))
      .types := by
  cases alternatives with
  | nil => exact fun _ _ _ _ => .pure .eachNil
  | cons alternative alternatives =>
    obtain ⟨halternative, hrest⟩ := List.append_subset.1 halternatives
    intro s hs hfuel _
    rw [lowerAlternatives]
    refine isNullAlternative_bind (List.append_subset.2 ⟨halternative, hR⟩) ?_
    have ih := lowerAlternatives_yields hexpand hR alternatives hrest
    cases hnull : c.addsNull alternative with
    | true =>
      have heq : c.variants (alternative :: alternatives) = c.variants alternatives := by
        simp [ApiComponents.variants, hnull]
      rw [heq]
      exact ih s hs hfuel nofun
    | false =>
      have heq : c.variants (alternative :: alternatives) =
          alternative :: c.variants alternatives := by
        simp [ApiComponents.variants, hnull]
      rw [heq]
      have hfirst := lower_yields hexpand hR alternative halternative none none
      refine hfirst.bind hs hfuel nofun fun id s₁ hrun hs₁ _ hfuel₁ => ?_
      refine ih.bind hs₁ hfuel₁ nofun fun ids s₂ hruns _ _ _ => ?_
      exact .pure (.eachCons hrun hruns)
termination_by sizeOf alternatives

private theorem lowerProperties_yields (hexpand : Expands c R fuel expand)
    (hR : c.schemaReferences ⊆ R) (properties : List (String × Schema))
    (hproperties : Schema.referencesProperties properties ⊆ R) :
    YieldsFields c R fuel (lowerProperties c expand properties) properties := by
  match properties, hproperties with
  | [], _ => exact fun _ _ _ => .pure ⟨.eachNil, rfl⟩
  | (name, schema) :: properties, hproperties =>
    obtain ⟨hschema, hrest⟩ := List.append_subset.1 hproperties
    intro s hs hfuel
    rw [lowerProperties]
    have hfirst := lower_yields hexpand hR schema hschema none none
    refine hfirst.bind hs hfuel nofun fun id s₁ hrun hs₁ _ hfuel₁ => ?_
    have ih := lowerProperties_yields hexpand hR properties hrest
    refine .bind (ih s₁ hs₁ hfuel₁) fun own s₂ ⟨hruns, hnames⟩ => ?_
    exact .pure ⟨.eachCons hrun hruns, by simp [hnames]⟩
termination_by sizeOf properties

end

private theorem expandComponent_expands (hR : c.schemaReferences ⊆ R) (fuel : Nat) :
    Expands c R fuel (expandComponent c fuel) := by
  induction fuel with
  | zero => exact fun _ _ _ _ _ _ hfuel _ => absurd hfuel (Nat.not_lt_zero _)
  | succ fuel ih =>
    intro name slot target s htarget hs hfuel hslot
    refine lower_yields ih hR target htarget (some name) (some slot) s hs (Nat.le_of_lt_succ hfuel) ?_
    rintro _ ⟨⟩
    exact hslot

/-- A schema is lowered as the relation says, unless one of the references is malformed. -/
theorem lowerSchema_ends {schema : Schema} (hschema : schema.references ⊆ R)
    (hR : c.schemaReferences ⊆ R) {s : LoweringState} (hs : s.InRange) :
    Ends (MalformedIn R) (lowerSchema c schema) s fun id s' =>
      Lowers c (.schema none none schema) s (.type id) s' :=
  lower_yields (expandComponent_expands hR _) hR schema hschema none none s hs
    (c.missing_le_length s) nofun

end Lowering

end RequestDocs.OpenApi
