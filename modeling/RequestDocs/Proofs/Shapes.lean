import RequestDocs.OpenApi.Lowering
/-!
# Shapes of schemas

What a schema comes to as a type, one layer at a time, and the references that stand in it.
-/

namespace RequestDocs.OpenApi

/-- A layer of a type: a node without parts, or one made of other schemas. -/
inductive Shape
  | reference (path : String)
  | leaf (node : TypeNode)
  /-- Nothing of its own: the type of another schema. -/
  | sameAs (target : Schema)
  | union (variants : List Schema)
  | array (element : Schema)
  /-- An array of values of no schema. -/
  | openArray (kind : String)
  /-- Own fields are copied from members, and then come from properties. -/
  | record (base : Option Schema) (members : List Schema) (properties : List (String × Schema))

def Shape.parts : Shape → List Schema
  | reference _ => []
  | leaf _ => []
  | sameAs target => [target]
  | union variants => variants
  | array element => [element]
  | openArray _ => []
  | record base members properties => base.toList ++ members ++ properties.map (·.2)

namespace Schema

def isReference (s : Schema) : Bool := s.path?.isSome

def constant (value : Json) : Schema :=
  object ⟨.absent, none, [], some value⟩ [] [] [] [] .absent

def ofType (facts : SchemaFacts) (properties : List (String × Schema)) (items : Items Schema)
    (type : SchemaType) : Schema :=
  object ⟨.single type, facts.format, [], none⟩ [] [] [] properties items

end Schema

def Items.shape : Items Schema → Shape
  | absent => .openArray "any"
  | boolean => .openArray "boolean schema"
  | schema element => .array element

namespace SchemaFacts

def enumShape (facts : SchemaFacts) : Shape :=
  match facts.enumValues.filter (!·.isNull) with
  | [] => .leaf (.literal .null)
  | values => .union (values.map Schema.constant)

def typeShape (facts : SchemaFacts) (properties : List (String × Schema)) (items : Items Schema) :
    SchemaType → Shape
  | .object => .record none [] properties
  | .array => items.shape
  | .null => .leaf (.unknown "null")
  | type => .leaf (.scalar ((facts.scalarName? type).getD "string"))

def typesShape (facts : SchemaFacts) (properties : List (String × Schema)) (items : Items Schema) :
    Shape :=
  match facts.types.declared with
  | [] => if properties.isEmpty then .leaf (.unknown "any") else .record none [] properties
  | [type] => facts.typeShape properties items type
  | types => .union (types.map (Schema.ofType facts properties items))

end SchemaFacts

namespace ApiComponents

def addsNull (c : ApiComponents) (schema : Schema) : Bool :=
  match c.resolveSchema schema with
  | .ok (some target) => target.isNullableObject
  | _ => false

def variants (c : ApiComponents) (alternatives : List Schema) : List Schema :=
  alternatives.filter (!c.addsNull ·)

end ApiComponents

def unionShape (variants : List Schema) (hasProperties : Bool) : Shape :=
  match variants, hasProperties with
  | [only], false => .sameAs only
  | variants, _ => .union variants

namespace Schema

def shape (c : ApiComponents) : Schema → Shape
  | reference path => .reference path
  | object facts allOf oneOf anyOf properties items =>
    match allOf, properties.isEmpty with
    | [only], true => .sameAs only
    | [], _ =>
      if !facts.enumValues.isEmpty then facts.enumShape
      else match facts.constValue with
        | some value => .leaf (.literal value)
        | none =>
          if oneOf.isEmpty && anyOf.isEmpty then facts.typesShape properties items
          else unionShape (c.variants (oneOf ++ anyOf)) (!properties.isEmpty)
    | members, _ => .record (members.find? isReference) (members.eraseP isReference) properties

theorem parts_subset {c : ApiComponents} {schema : Schema} {shape : Shape}
    (hshape : schema.shape c = shape) : shape.parts ⊆ (schema.shape c).parts :=
  hshape ▸ List.Subset.refl _

end Schema

namespace Shape

variable {base : Option Schema} {members : List Schema} {properties : List (String × Schema)}

theorem base_subset_parts : base.toList ⊆ (record base members properties).parts :=
  List.subset_append_of_subset_left _ (List.subset_append_left _ _)

theorem members_subset_parts : members ⊆ (record base members properties).parts :=
  List.subset_append_of_subset_left _ (List.subset_append_right _ _)

theorem properties_subset_parts :
    properties.map (·.2) ⊆ (record base members properties).parts :=
  List.subset_append_right _ _

end Shape

/-- The nodes that schemas come to by themselves refer to nothing, have no name and are not
pending. -/
def Shape.Settled : Shape → Prop
  | leaf node => node.references = [] ∧ node ≠ .pending ∧ ∀ name, Lowering.rename name node = node
  | openArray kind => TypeNode.unknown kind ≠ .pending
  | _ => True

private theorem Items.settled_shape (items : Items Schema) : items.shape.Settled := by
  cases items with
  | absent | boolean => simp [Items.shape, Shape.Settled, TypeNode.pending]
  | schema => trivial

private theorem SchemaFacts.settled_typeShape (facts : SchemaFacts)
    (properties : List (String × Schema)) (items : Items Schema) (type : SchemaType) :
    (facts.typeShape properties items type).Settled := by
  cases type with
  | object => trivial
  | array => exact items.settled_shape
  | null => exact ⟨rfl, by simp [TypeNode.pending], fun name => by cases name <;> rfl⟩
  | string | boolean | integer | number =>
    exact ⟨rfl, nofun, fun name => by cases name <;> rfl⟩

private theorem SchemaFacts.settled_typesShape (facts : SchemaFacts)
    (properties : List (String × Schema)) (items : Items Schema) :
    (facts.typesShape properties items).Settled := by
  unfold typesShape
  split
  · split
    · exact ⟨rfl, by simp [TypeNode.pending], fun name => by cases name <;> rfl⟩
    · trivial
  · exact facts.settled_typeShape properties items _
  · trivial

private theorem SchemaFacts.settled_enumShape (facts : SchemaFacts) : facts.enumShape.Settled := by
  unfold enumShape
  split
  · exact ⟨rfl, nofun, fun name => by cases name <;> rfl⟩
  · trivial

private theorem settled_unionShape (variants : List Schema) (hasProperties : Bool) :
    (unionShape variants hasProperties).Settled := by
  unfold unionShape
  split <;> trivial

namespace Schema

theorem settled_shape {c : ApiComponents} {s : Schema} {shape : Shape} (h : s.shape c = shape) :
    shape.Settled := by
  cases s with
  | reference =>
    cases h
    trivial
  | object facts allOf oneOf anyOf properties items =>
    simp only [Schema.shape] at h
    split at h
    · cases h
      trivial
    · split at h
      · exact h ▸ facts.settled_enumShape
      · split at h
        · exact h ▸ ⟨rfl, nofun, fun name => by cases name <;> rfl⟩
        · split at h
          · exact h ▸ facts.settled_typesShape properties items
          · exact h ▸ settled_unionShape _ _
    · cases h
      trivial

theorem path?_of_record {c : ApiComponents} {s : Schema} {base : Option Schema}
    {members : List Schema} {properties : List (String × Schema)}
    (h : s.shape c = .record base members properties) : s.path? = none := by
  cases s with
  | reference => cases h
  | object => rfl

private theorem base_of_typesShape {facts : SchemaFacts}
    {properties : List (String × Schema)} {items : Items Schema} {base : Option Schema}
    {members : List Schema} {properties' : List (String × Schema)}
    (h : facts.typesShape properties items = .record base members properties') : base = none := by
  unfold SchemaFacts.typesShape at h
  split at h
  · split at h
    · cases h
    · cases h
      rfl
  · unfold SchemaFacts.typeShape at h
    split at h
    · cases h
      rfl
    · cases items <;> cases h
    · cases h
    · cases h
  · cases h

private theorem items_ne_reference (items : Items Schema) (path : String) :
    items.shape ≠ .reference path := by
  cases items <;> exact nofun

private theorem types_ne_reference (facts : SchemaFacts) (properties : List (String × Schema))
    (items : Items Schema) (path : String) :
    facts.typesShape properties items ≠ .reference path := by
  unfold SchemaFacts.typesShape
  split
  · split <;> exact nofun
  · next type _ =>
    cases type with
    | array => exact items_ne_reference items path
    | object | null | string | boolean | integer | number => exact nofun
  · exact nofun

theorem eq_reference_of_shape {c : ApiComponents} {s : Schema} {path : String}
    (h : s.shape c = .reference path) : s = .reference path := by
  cases s with
  | reference =>
    cases h
    rfl
  | object facts allOf oneOf anyOf properties items =>
    simp only [Schema.shape] at h
    split at h
    · cases h
    · split at h
      · unfold SchemaFacts.enumShape at h
        split at h <;> cases h
      · split at h
        · cases h
        · split at h
          · exact absurd h (types_ne_reference facts properties items path)
          · unfold unionShape at h
            split at h <;> cases h
    · cases h

theorem exists_path_of_base {c : ApiComponents} {s base : Schema} {members : List Schema}
    {properties : List (String × Schema)} (h : s.shape c = .record (some base) members properties) :
    ∃ path, base = .reference path := by
  have hreference (members : List Schema) (hbase : members.find? isReference = some base) :
      ∃ path, base = .reference path := by
    have hpath := List.find?_some hbase
    cases base with
    | reference path => exact ⟨path, rfl⟩
    | object => cases hpath
  cases s with
  | reference => cases h
  | object facts allOf oneOf anyOf properties items =>
    simp only [Schema.shape] at h
    split at h
    · cases h
    · split at h
      · unfold SchemaFacts.enumShape at h
        split at h <;> cases h
      · split at h
        · cases h
        · split at h
          · cases base_of_typesShape h
          · unfold unionShape at h
            split at h <;> cases h
    · injection h with hbase
      exact hreference _ hbase

mutual

def references : Schema → List String
  | reference path => [path]
  | object _ allOf oneOf anyOf properties items =>
    referencesAll allOf ++ referencesAll oneOf ++ referencesAll anyOf ++
      referencesProperties properties ++ referencesItems items

def referencesAll : List Schema → List String
  | [] => []
  | schema :: schemas => references schema ++ referencesAll schemas

def referencesProperties : List (String × Schema) → List String
  | [] => []
  | (_, schema) :: properties => references schema ++ referencesProperties properties

def referencesItems : Items Schema → List String
  | .absent => []
  | .boolean => []
  | .schema schema => references schema

end

theorem referencesAll_eq (schemas : List Schema) :
    referencesAll schemas = schemas.flatMap references := by
  induction schemas with
  | nil => rfl
  | cons schema schemas ih => simp [referencesAll, ih]

theorem referencesProperties_eq (properties : List (String × Schema)) :
    referencesProperties properties = properties.flatMap (·.2.references) := by
  induction properties with
  | nil => rfl
  | cons property properties ih => simp [referencesProperties, ih]

private theorem references_mem_referencesAll {schema : Schema} {schemas : List Schema}
    (h : schema ∈ schemas) : references schema ⊆ referencesAll schemas := by
  rw [referencesAll_eq]
  exact fun path hpath => List.mem_flatMap.2 ⟨schema, h, hpath⟩

private theorem references_mem_referencesProperties {schema : Schema}
    {properties : List (String × Schema)} (h : schema ∈ properties.map (·.2)) :
    references schema ⊆ referencesProperties properties := by
  obtain ⟨property, hproperty, rfl⟩ := List.mem_map.1 h
  rw [referencesProperties_eq]
  exact fun path hpath => List.mem_flatMap.2 ⟨property, hproperty, hpath⟩

private theorem references_of_typeShape {facts : SchemaFacts} {properties : List (String × Schema)}
    {items : Items Schema} {type : SchemaType} {part : Schema}
    (h : part ∈ (facts.typeShape properties items type).parts) :
    references part ⊆ referencesProperties properties ++ referencesItems items := by
  cases type with
  | object =>
    have hpart : part ∈ properties.map (·.2) := h
    exact List.subset_append_of_subset_left _ (references_mem_referencesProperties hpart)
  | array =>
    cases items with
    | absent | boolean => cases h
    | schema element =>
      obtain rfl := List.mem_singleton.1 h
      exact List.subset_append_right _ _
  | string | boolean | integer | number | null => cases h

private theorem references_of_typesShape {facts : SchemaFacts}
    {properties : List (String × Schema)} {items : Items Schema} {part : Schema}
    (h : part ∈ (facts.typesShape properties items).parts) :
    references part ⊆ referencesProperties properties ++ referencesItems items := by
  unfold SchemaFacts.typesShape at h
  split at h
  · split at h
    · cases h
    · have hpart : part ∈ properties.map (·.2) := h
      exact List.subset_append_of_subset_left _ (references_mem_referencesProperties hpart)
  · exact references_of_typeShape h
  · obtain ⟨type, _, rfl⟩ := List.mem_map.1 h
    simp [ofType, references, referencesAll]

private theorem references_of_enumShape {facts : SchemaFacts} {part : Schema}
    (h : part ∈ facts.enumShape.parts) : references part = [] := by
  unfold SchemaFacts.enumShape at h
  split at h
  · cases h
  · obtain ⟨value, _, rfl⟩ := List.mem_map.1 h
    rfl

private theorem mem_of_unionShape {c : ApiComponents} {alternatives : List Schema}
    {hasProperties : Bool} {part : Schema}
    (h : part ∈ (unionShape (c.variants alternatives) hasProperties).parts) :
    part ∈ alternatives := by
  have hmem : part ∈ c.variants alternatives := by
    unfold unionShape at h
    split at h
    · next heq => exact heq ▸ h
    · exact h
  exact (List.mem_filter.1 hmem).1

theorem references_of_mem_parts {c : ApiComponents} {s part : Schema}
    (h : part ∈ (s.shape c).parts) : part.references ⊆ s.references := by
  cases s with
  | reference => cases h
  | object facts allOf oneOf anyOf properties items =>
    have hall (path : String) :
        path ∈ references (.object facts allOf oneOf anyOf properties items) ↔
        path ∈ referencesAll allOf ∨ path ∈ referencesAll (oneOf ++ anyOf) ∨
          path ∈ referencesProperties properties ++ referencesItems items := by
      simp [references, referencesAll_eq, or_assoc]
    intro path hpath
    rw [hall]
    simp only [Schema.shape] at h
    split at h
    · obtain rfl := List.mem_singleton.1 h
      exact .inl (references_mem_referencesAll List.mem_cons_self hpath)
    · split at h
      · rw [references_of_enumShape h] at hpath
        cases hpath
      · split at h
        · cases h
        · split at h
          · exact .inr (.inr (references_of_typesShape h hpath))
          · exact .inr (.inl (references_mem_referencesAll (mem_of_unionShape h) hpath))
    · rcases List.mem_append.1 h with h | h
      · refine .inl (references_mem_referencesAll ?_ hpath)
        rcases List.mem_append.1 h with h | h
        · exact List.mem_of_find?_eq_some (Option.mem_toList.1 h)
        · exact List.mem_of_mem_eraseP h
      · refine .inr (.inr (List.mem_append_left _ ?_))
        exact references_mem_referencesProperties h hpath

end Schema

def ApiComponents.schemaReferences (c : ApiComponents) : List String :=
  c.schemas.flatMap (·.2.references)

end RequestDocs.OpenApi
