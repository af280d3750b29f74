import RequestDocs.OpenApi.Api
/-!
# Reading API descriptions

The description that a JSON value of its form stands for.
-/

namespace RequestDocs.OpenApi

private def membersOf (value : Json) : List (String × Json) := value.members?.getD []

def OrReference.ofJson {α : Type} (read : Json → α) (value : Json) : OrReference α :=
  let members := membersOf value
  if isReference members then .reference ((textMember? members "$ref").getD "")
  else .object (read value)

private def placeOf : Option String → ParameterPlace
  | some "path" => .path
  | some "query" => .query
  | some "header" => .header
  | _ => .cookie

def ApiParameter.ofJson (value : Json) : ApiParameter :=
  let members := membersOf value
  ⟨placeOf (textMember? members "in"), (textMember? members "name").getD ""⟩

def ApiBody.ofJson (value : Json) : ApiBody where
  content := (entriesMember (membersOf value) "content").map fun (contentType, media) =>
    (contentType, (member? (membersOf media) "schema").map Schema.ofJson)

private def parametersOf (members : List (String × Json)) : List (OrReference ApiParameter) :=
  (itemsMember members "parameters").map (.ofJson ApiParameter.ofJson)

def ApiOperation.ofJson (value : Json) : ApiOperation :=
  let members := membersOf value
  { operationId := textMember? members "operationId"
    tags := (itemsMember members "tags").filterMap (·.text?)
    parameters := parametersOf members
    requestBody := (member? members "requestBody").map (.ofJson ApiBody.ofJson) }

/-- The members of a path that hold operations, in the order in which operations are listed, with
their verbs. A trace operation is listed twice. -/
def verbKeys : List (String × String) :=
  [("get", "GET"), ("put", "PUT"), ("post", "POST"), ("delete", "DELETE"), ("options", "OPTIONS"),
    ("head", "HEAD"), ("patch", "PATCH"), ("trace", "TRACE"), ("trace", "TRACE")]

def ApiPath.ofJson (value : Json) : ApiPath :=
  let members := membersOf value
  { operations := verbKeys.filterMap fun (key, verb) =>
      (member? members key).map fun op => (verb, ApiOperation.ofJson op)
    parameters := parametersOf members }

def ApiComponents.ofJson (value : Json) : ApiComponents :=
  let members := membersOf value
  { schemas := (entriesMember members "schemas").map fun (name, v) => (name, .ofJson v)
    parameters := (entriesMember members "parameters").map fun (name, v) =>
      (name, .ofJson ApiParameter.ofJson v)
    requestBodies := (entriesMember members "requestBodies").map fun (name, v) =>
      (name, .ofJson ApiBody.ofJson v) }

private def schemesOf (requirement : Json) : List String :=
  (sortByKey (membersOf requirement)).map (·.1)

def Api.ofMembers (members : List (String × Json)) : Api where
  title := (textMember? ((member? members "info").bind (·.members?) |>.getD []) "title").getD ""
  security := (itemsMember members "security").map schemesOf
  paths := (entriesMember members "paths").map fun (path, item) => (path, .ofJson item)
  components := .ofJson ((member? members "components").getD .null)

/-- The description of a value; `none` when the value is no description. -/
def Api.read? (value : Json) : Option Api :=
  if fits (.entity .description) value then value.members?.map Api.ofMembers else none

end RequestDocs.OpenApi
