import RequestDocs.OpenApi.Form
import RequestDocs.KeyOrder
/-!
# Schemas

The part of a schema that decides the shape of a type, and questions about it.
-/

namespace RequestDocs.OpenApi

inductive SchemaType
  | string
  | boolean
  | integer
  | number
  | array
  | object
  | null
deriving DecidableEq

namespace SchemaType

def all : List SchemaType := [string, boolean, integer, number, array, object, null]

def name : SchemaType → String
  | string => "string"
  | boolean => "boolean"
  | integer => "integer"
  | number => "number"
  | array => "array"
  | object => "object"
  | null => "null"

def ofName? (name : String) : Option SchemaType := all.find? (·.name == name)

end SchemaType

/-- The types a schema declares: none, one by itself, or a list. -/
inductive TypeSet
  | absent
  | single (type : SchemaType)
  | multiple (types : List SchemaType)
deriving DecidableEq

/-- What a schema says beside its subschemas. -/
structure SchemaFacts where
  types : TypeSet
  format : Option String
  enumValues : List Json
  constValue : Option Json

inductive Items (α : Type)
  | absent
  | boolean
  | schema (schema : α)

/-- A schema or a reference to one. Properties are in key order. -/
inductive Schema
  | reference (path : String)
  | object (facts : SchemaFacts) (allOf oneOf anyOf : List Schema)
      (properties : List (String × Schema)) (items : Items Schema)

namespace TypeSet

def single? : TypeSet → Option SchemaType
  | single type => some type
  | _ => none

/-- The declared types; a list leaves out null. -/
def declared : TypeSet → List SchemaType
  | absent => []
  | single type => [type]
  | multiple types => types.filter (· != .null)

def isNullableRecord : TypeSet → Bool
  | multiple types => types.contains .null && types.contains .object
  | _ => false

end TypeSet

/-- The name by which samples of a scalar type are looked up. -/
def SchemaFacts.scalarName? (facts : SchemaFacts) : SchemaType → Option String
  | .string => match facts.format with
    | some "date" => some "date"
    | some "date-time" => some "datetime"
    | some "duration" => some "duration"
    | some "uuid" => some "guid"
    | some "byte" => some "bytes"
    | some "binary" => some "bytes"
    | _ => some "string"
  | .boolean => some "boolean"
  | .integer => some (facts.format.getD "integer")
  | .number => match facts.format with
    | none => some "number"
    | some "float" => some "float32"
    | some "double" => some "float64"
    | some other => some other
  | .array => none
  | .object => none
  | .null => none

namespace Schema

def path? : Schema → Option String
  | reference path => some path
  | object .. => none

def facts : Schema → SchemaFacts
  | reference _ => ⟨.absent, none, [], none⟩
  | object facts .. => facts

def alternatives : Schema → List Schema
  | reference _ => []
  | object _ _ oneOf anyOf _ _ => oneOf ++ anyOf

def properties : Schema → List (String × Schema)
  | reference _ => []
  | object _ _ _ _ properties _ => properties

def isNull (s : Schema) : Bool := s.facts.types.single? == some .null

/-- Whether the schema adds nothing but null to a union. -/
def isNullableObject (s : Schema) : Bool :=
  s.isNull || (s.facts.types.isNullableRecord && s.properties.isEmpty)

end Schema

/-- The member of an object, unless it is absent or null. -/
def member? (members : List (String × Json)) (key : String) : Option Json :=
  (members.lookup key).filter (!·.isNull)

def textMember? (members : List (String × Json)) (key : String) : Option String :=
  (member? members key).bind (·.text?)

def itemsMember (members : List (String × Json)) (key : String) : List Json :=
  ((member? members key).bind (·.items?)).getD []

def entriesMember (members : List (String × Json)) (key : String) : List (String × Json) :=
  sortByKey (((member? members key).bind (·.members?)).getD [])

def TypeSet.ofJson : Json → TypeSet
  | .string name => ((SchemaType.ofName? name).map .single).getD .absent
  | .array items => .multiple (items.filterMap fun item => item.text?.bind SchemaType.ofName?)
  | _ => .absent

def SchemaFacts.ofMembers (members : List (String × Json)) : SchemaFacts where
  types := ((member? members "type").map TypeSet.ofJson).getD .absent
  format := textMember? members "format"
  enumValues := (itemsMember members "enum").map Json.collapse
  constValue := (member? members "const").map Json.collapse

namespace Schema

structure Parts where
  allOf : List Schema
  oneOf : List Schema
  anyOf : List Schema
  properties : List (String × Schema)
  items : Items Schema

mutual

def ofJson : Json → Schema
  | .object members =>
    if isReference members then reference ((textMember? members "$ref").getD "")
    else
      let parts := partsOf members
      object (.ofMembers members) parts.allOf parts.oneOf parts.anyOf parts.properties parts.items
  | _ => object (.ofMembers []) [] [] [] [] .absent

def ofItems : List Json → List Schema
  | [] => []
  | item :: items => ofJson item :: ofItems items

def ofEntries : List (String × Json) → List (String × Schema)
  | [] => []
  | (key, value) :: entries => (key, ofJson value) :: ofEntries entries

def partsOf : List (String × Json) → Parts
  | [] => ⟨[], [], [], [], .absent⟩
  | (key, value) :: members =>
    let parts := partsOf members
    match value with
    | .array items =>
      if key = "allOf" then { parts with allOf := ofItems items }
      else if key = "oneOf" then { parts with oneOf := ofItems items }
      else if key = "anyOf" then { parts with anyOf := ofItems items }
      else parts
    | .object entries =>
      if key = "properties" then { parts with properties := sortByKey (ofEntries entries) }
      else if key = "items" then { parts with items := .schema (ofJson (.object entries)) }
      else parts
    | .bool _ => if key = "items" then { parts with items := .boolean } else parts
    | _ => parts

end

/-- The schema that an object stands for when it is read as no reference. -/
def ofMembers (members : List (String × Json)) : Schema :=
  let parts := partsOf members
  object (.ofMembers members) parts.allOf parts.oneOf parts.anyOf parts.properties parts.items

/-- The schema of a value that is no reference; `none` when the value is no schema. -/
def read? (value : Json) : Option Schema :=
  if fits (.entity .schema) value then value.members?.map ofMembers else none

end Schema

end RequestDocs.OpenApi
