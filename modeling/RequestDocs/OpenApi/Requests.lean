import RequestDocs.Generation.Basic
import RequestDocs.OpenApi.Lowering
/-!
# Requests of an API

The service that a description stands for: its operations with names, groups, parameters and bodies,
and the types of the bodies.
-/

namespace RequestDocs.OpenApi

open Text

/-- The name of the service; a blank title has a fixed one. -/
def serviceName [Spelling] (title : String) : String :=
  if allBlank title then "Service" else Naming.typeName title

/-- The name of an operation: its id without blanks around it, or one made from verb and path. -/
def operationName [Spelling] (path verb : String) (op : ApiOperation) : String :=
  match (op.operationId.map trim).filter (!·.isEmpty) with
  | some name => name
  | none => Naming.operationId verb path

def defaultGroup : String := "root"

/-- The first segment of a path that is not empty and has no token. -/
def firstPlainSegment? (path : String) : Option String :=
  ((splitOn '/' path.toList).find? fun s => !s.isEmpty && !s.contains '{').map String.ofList

/-- The group of an operation: its first tag, or else its path, as far as they make a name. -/
def operationGroup [Spelling] (path : String) (op : ApiOperation) : String :=
  let named (text : Option String) : Option String :=
    (text.map Naming.sanitize).filter (!·.isEmpty)
  ((named op.tags.head?) <|> (named (firstPlainSegment? path))).getD defaultGroup

def requiredSchemes (security : List (List String)) : Authentication :=
  match security.flatten.eraseDups with
  | [] => .none
  | schemes => .schemes schemes

/-- Parameters with one more, which takes the place of those with its location and name. -/
def overrideParameter (parameters : List ApiParameter) (p : ApiParameter) : List ApiParameter :=
  parameters.filter (· != p) ++ [p]

/-- The parameter sent with a request; cookies are left to the client. -/
def sentParameter? (p : ApiParameter) : Option Parameter :=
  match p.place with
  | .path => some ⟨.path, p.name⟩
  | .query => some ⟨.query, p.name⟩
  | .header => some ⟨.header, p.name⟩
  | .cookie => none

def resolveParameters (components : ApiComponents) (parameters : List (OrReference ApiParameter)) :
    Except Fault (List ApiParameter) := do
  return (← parameters.mapM components.resolveParameter).filterMap id

def undeclaredTokens (path : String) (declared : List Parameter) : List Parameter :=
  ((uniqueTemplateParams path).map (⟨.path, ·⟩)).filter fun p => !declared.contains p

/-- The parameters of an operation: those of its path, overridden by its own, and then the tokens
of the path that none of them declares. -/
def collectParameters (components : ApiComponents) (path : String)
    (shared own : List (OrReference ApiParameter)) : Except Fault (List Parameter) := do
  let shared ← resolveParameters components shared
  let own ← resolveParameters components own
  let declared := (own.foldl overrideParameter shared).filterMap sentParameter?
  return declared ++ undeclaredTokens path declared

def isBinary : Option Schema → Bool
  | some (.object facts ..) => facts.format == some "binary"
  | _ => false

def bodyKind (contentType : String) (schema : Option Schema) : BodyKind :=
  match MediaType.essence? contentType with
  | none => .single
  | some media =>
    if media.type == "multipart" then .multipart
    else if media.type == "application" && media.subtype == "octet-stream" then .file
    else if ["image", "audio", "video"].contains media.type then .file
    else if isBinary schema then .file
    else .single

def lowerBodySchema (components : ApiComponents) : Option Schema → Lowering TypeId
  | some schema => Lowering.lowerSchema components schema
  | none => Lowering.add (.unknown "unspecified")

/-- The body of an operation, shaped by its first content type. -/
def describeBody (components : ApiComponents) (op : ApiOperation) : Lowering (Option Body) := do
  match op.requestBody with
  | none => return none
  | some body =>
    match ← liftFault (components.resolveBody body) with
    | none => return none
    | some body =>
      match body.content with
      | [] => return none
      | (contentType, schema) :: _ =>
        let type ← lowerBodySchema components schema
        return some ⟨bodyKind contentType schema, body.content.map (·.1), type⟩

def Api.sharedParameters (api : Api) (path : String) : List (OrReference ApiParameter) :=
  ((api.paths.lookup path).map (·.parameters)).getD []

def describeOperation [Spelling] (api : Api) (path verb : String) (op : ApiOperation) :
    Lowering Operation := do
  let parameters ← liftFault (collectParameters api.components path (api.sharedParameters path)
    op.parameters)
  let body ← describeBody api.components op
  return {
    name := operationName path verb op
    group := operationGroup path op
    verb := some ⟨verb⟩
    path
    parameters
    body
    authentication := requiredSchemes api.security }

def describeOperations [Spelling] (api : Api) : Lowering (List Operation) :=
  api.operations.mapM fun (path, verb, op) => describeOperation api path verb op

def Api.source [Spelling] (api : Api) : Except Fault Source :=
  match describeOperations api .initial with
  | .error fault _ => .error fault
  | .ok operations state => .ok {
      services := [⟨serviceName api.title, operations, requiredSchemes api.security⟩]
      types := state.graph
      pointers := state.pointers }

end RequestDocs.OpenApi
