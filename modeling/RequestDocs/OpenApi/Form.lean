import RequestDocs.Json.Basic
/-!
# Forms of an API description

What each object of a description may hold, as data, and the check that a JSON value has a form.
Unknown members are free.
-/

namespace RequestDocs.OpenApi

/-- The objects of a description. -/
inductive Entity
  | description
  | info
  | contact
  | license
  | server
  | serverVariable
  | tag
  | externalDocs
  | pathItem
  | operation
  | parameter
  | requestBody
  | mediaType
  | encoding
  | response
  | header
  | exampleObject
  | link
  | callback
  | securityScheme
  | components
  | schema
  | discriminator
deriving DecidableEq

inductive Form
  | any
  | text
  | flag
  | number
  /-- A number that counts. -/
  | count
  | choice (names : List String)
  /-- A type name or a list of type names. -/
  | types
  | list (item : Form)
  | map (value : Form)
  | entity (kind : Entity)
  | entityOrReference (kind : Entity)
  | flagOrSchema
deriving DecidableEq

/-- What a member of an object may be. -/
structure Slot where
  form : Form
  required : Bool
  nullable : Bool
deriving DecidableEq

namespace Slot

/-- A member that must be there. -/
def must (form : Form) : Slot := ⟨form, true, false⟩

/-- A member that may be absent or null. -/
def may (form : Form) : Slot := ⟨form, false, true⟩

/-- A member that is empty when absent, and never null. -/
def defaulted (form : Form) : Slot := ⟨form, false, false⟩

end Slot

def typeNames : List String :=
  ["string", "boolean", "integer", "number", "array", "object", "null"]

private def sharedParameterSlots : List (String × Slot) := [
  ("description", .may .text),
  ("required", .may .flag),
  ("deprecated", .may .flag),
  ("allowEmptyValue", .may .flag),
  ("style", .may (.choice ["matrix", "label", "form", "simple", "spaceDelimited",
    "pipeDelimited", "deepObject"])),
  ("explode", .may .flag),
  ("allowReserved", .may .flag),
  ("schema", .may (.entityOrReference .schema)),
  ("example", .may .any),
  ("examples", .defaulted (.map (.entityOrReference .exampleObject))),
  ("content", .may (.map (.entity .mediaType)))]

def Entity.slots : Entity → List (String × Slot)
  | description => [
    ("openapi", .must .text),
    ("info", .must (.entity .info)),
    ("servers", .defaulted (.list (.entity .server))),
    ("paths", .may (.map (.entity .pathItem))),
    ("components", .may (.entity .components)),
    ("security", .defaulted (.list (.map (.list .text)))),
    ("tags", .defaulted (.list (.entity .tag))),
    ("webhooks", .defaulted (.map (.entity .pathItem))),
    ("externalDocs", .may (.entity .externalDocs))]
  | info => [
    ("title", .must .text),
    ("summary", .may .text),
    ("description", .may .text),
    ("termsOfService", .may .text),
    ("contact", .may (.entity .contact)),
    ("license", .may (.entity .license)),
    ("version", .must .text)]
  | contact => [("name", .may .text), ("url", .may .text), ("email", .may .text)]
  | license => [("name", .may .text), ("identifier", .may .text), ("url", .may .text)]
  | server => [
    ("url", .must .text),
    ("description", .may .text),
    ("variables", .defaulted (.map (.entity .serverVariable)))]
  | serverVariable => [
    ("default", .may .text),
    ("enum", .defaulted (.list .text)),
    ("description", .may .text)]
  | tag => [
    ("name", .must .text),
    ("description", .may .text),
    ("externalDocs", .may (.entity .externalDocs))]
  | externalDocs => [("url", .may .text), ("description", .may .text)]
  | pathItem => [
    ("$ref", .may .text),
    ("summary", .may .text),
    ("description", .may .text),
    ("get", .may (.entity .operation)),
    ("put", .may (.entity .operation)),
    ("post", .may (.entity .operation)),
    ("delete", .may (.entity .operation)),
    ("options", .may (.entity .operation)),
    ("head", .may (.entity .operation)),
    ("patch", .may (.entity .operation)),
    ("trace", .may (.entity .operation)),
    ("servers", .defaulted (.list (.entity .server))),
    ("parameters", .defaulted (.list (.entityOrReference .parameter)))]
  | operation => [
    ("tags", .defaulted (.list .text)),
    ("summary", .may .text),
    ("description", .may .text),
    ("externalDocs", .may (.entity .externalDocs)),
    ("operationId", .may .text),
    ("parameters", .defaulted (.list (.entityOrReference .parameter))),
    ("requestBody", .may (.entityOrReference .requestBody)),
    ("responses", .may (.map (.entityOrReference .response))),
    ("callbacks", .defaulted (.map (.entityOrReference .callback))),
    ("deprecated", .may .flag),
    ("security", .defaulted (.list (.map (.list .text)))),
    ("servers", .defaulted (.list (.entity .server)))]
  | parameter =>
    ("name", .must .text) ::
    ("in", .must (.choice ["path", "query", "header", "cookie"])) :: sharedParameterSlots
  | header => sharedParameterSlots
  | requestBody => [
    ("description", .may .text),
    ("content", .must (.map (.entity .mediaType))),
    ("required", .may .flag)]
  | mediaType => [
    ("schema", .may (.entityOrReference .schema)),
    ("encoding", .defaulted (.map (.entity .encoding)))]
  | encoding => [
    ("contentType", .may .text),
    ("headers", .defaulted (.map (.entityOrReference .header))),
    ("style", .may .text),
    ("explode", .may .flag),
    ("allowReserved", .may .flag)]
  | response => [
    ("description", .may .text),
    ("headers", .defaulted (.map (.entityOrReference .header))),
    ("content", .defaulted (.map (.entity .mediaType))),
    ("links", .defaulted (.map (.entityOrReference .link)))]
  | exampleObject => [
    ("summary", .may .text),
    ("description", .may .text),
    ("value", .may .any),
    ("externalValue", .may .text)]
  | link => [("description", .may .text)]
  | callback => []
  | securityScheme => [
    ("type", .must (.choice ["apiKey", "http", "oauth2", "openIdConnect", "mutualTLS"])),
    ("description", .may .text)]
  | components => [
    ("schemas", .defaulted (.map (.entityOrReference .schema))),
    ("responses", .defaulted (.map (.entityOrReference .response))),
    ("parameters", .defaulted (.map (.entityOrReference .parameter))),
    ("examples", .defaulted (.map (.entityOrReference .exampleObject))),
    ("requestBodies", .defaulted (.map (.entityOrReference .requestBody))),
    ("headers", .defaulted (.map (.entityOrReference .header))),
    ("securitySchemes", .defaulted (.map (.entityOrReference .securityScheme))),
    ("links", .defaulted (.map (.entityOrReference .link))),
    ("callbacks", .defaulted (.map (.entityOrReference .callback))),
    ("pathItems", .defaulted (.map (.entityOrReference .pathItem)))]
  | schema => [
    ("allOf", .defaulted (.list (.entityOrReference .schema))),
    ("anyOf", .defaulted (.list (.entityOrReference .schema))),
    ("oneOf", .defaulted (.list (.entityOrReference .schema))),
    ("items", .may .flagOrSchema),
    ("prefixItems", .defaulted (.list (.entityOrReference .schema))),
    ("properties", .defaulted (.map (.entityOrReference .schema))),
    ("additionalProperties", .may .flagOrSchema),
    ("type", .may .types),
    ("enum", .defaulted (.list .any)),
    ("const", .may .any),
    ("multipleOf", .may .number),
    ("maximum", .may .number),
    ("exclusiveMaximum", .may .number),
    ("minimum", .may .number),
    ("exclusiveMinimum", .may .number),
    ("maxLength", .may .count),
    ("minLength", .may .count),
    ("pattern", .may .text),
    ("maxItems", .may .count),
    ("minItems", .may .count),
    ("uniqueItems", .may .flag),
    ("maxProperties", .may .count),
    ("minProperties", .may .count),
    ("required", .defaulted (.list .text)),
    ("format", .may .text),
    ("title", .may .text),
    ("description", .may .text),
    ("default", .may .any),
    ("deprecated", .may .flag),
    ("readOnly", .may .flag),
    ("writeOnly", .may .flag),
    ("examples", .defaulted (.list .any)),
    ("discriminator", .may (.entity .discriminator)),
    ("example", .may .any)]
  | discriminator => [("propertyName", .must .text), ("mapping", .may (.map .text))]

private def isTextOrNull : Json → Bool
  | .string _ => true
  | .null => true
  | _ => false

/-- Whether an object stands for a reference: a `$ref` that is text beside at most a summary and a
description. -/
def isReference (members : List (String × Json)) : Bool :=
  let values (key : String) := (members.filter (·.1 == key)).map (·.2)
  ((values "$ref").length == 1 && (values "$ref").all (·.text?.isSome)) &&
    ["summary", "description"].all fun key =>
      (values key).length ≤ 1 && (values key).all isTextOrNull

/-- Whether the members of an object are complete, with no known member repeated. -/
def Entity.admits (kind : Entity) (members : List (String × Json)) : Bool :=
  kind.slots.all fun (key, slot) =>
    let count := (members.filter (·.1 == key)).length
    count ≤ 1 && (!slot.required || count == 1)

private def isTypeName : Json → Bool
  | .string name => typeNames.contains name
  | _ => false

mutual

def fits : Form → Json → Bool
  | .any, _ => true
  | .text, .string _ => true
  | .flag, .bool _ => true
  | .number, .number _ => true
  | .count, .number (.integer n) => 0 ≤ n
  | .choice names, .string name => names.contains name
  | .types, .string name => typeNames.contains name
  | .types, .array items => items.all isTypeName
  | .list item, .array items => fitsItems item items
  | .map value, .object members => fitsMembers (fun _ => some (.must value)) members
  | .entity kind, .object members =>
    kind.admits members && fitsMembers (kind.slots.lookup ·) members
  | .entityOrReference kind, .object members =>
    isReference members || (kind.admits members && fitsMembers (kind.slots.lookup ·) members)
  | .flagOrSchema, .bool _ => true
  | .flagOrSchema, .object members =>
    isReference members ||
      (Entity.schema.admits members && fitsMembers (Entity.schema.slots.lookup ·) members)
  | _, _ => false

def fitsItems (form : Form) : List Json → Bool
  | [] => true
  | item :: items => fits form item && fitsItems form items

def fitsMembers (slot? : String → Option Slot) : List (String × Json) → Bool
  | [] => true
  | (key, value) :: members =>
    (match slot? key with
      | none => true
      | some slot => (slot.nullable && value.isNull) || fits slot.form value) &&
    fitsMembers slot? members

end

end RequestDocs.OpenApi
