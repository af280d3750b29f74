import RequestDocs.Naming.Operation
import RequestDocs.TypeGraph.Basic
/-!
# Operations

The requests of a service: what is known of each before its document is written.
-/

namespace RequestDocs

structure Verb where
  token : String
deriving DecidableEq

namespace Verb

def isTokenChar (c : Char) : Bool :=
  c.isAlphanum || "!#$%&'*+-.^_\x60|~".toList.contains c

/-- A verb is a token of at least one character; case matters. -/
def parse? (s : String) : Option Verb :=
  if s.toList.isEmpty || !s.toList.all isTokenChar then none else some ⟨s⟩

def invalidMessage : String := "invalid HTTP method"

def carriesPayload (v : Verb) : Bool := ["POST", "PUT", "PATCH"].contains v.token

def capitals (v : Verb) : String := String.ofList (v.token.toList.map Char.toUpper)

end Verb

inductive ParameterLocation
  | path
  | query
  | header
deriving DecidableEq

structure Parameter where
  location : ParameterLocation
  name : String
deriving DecidableEq

inductive BodyKind
  | single
  | multipart
  | file
deriving DecidableEq

def BodyKind.name : BodyKind → String
  | single => "single"
  | multipart => "multipart"
  | file => "file"

structure Body where
  kind : BodyKind
  contentTypes : List String
  type : TypeId
deriving DecidableEq

/-- The first content type, JSON when there is none. -/
def Body.primaryContentType (b : Body) : String := b.contentTypes.headD "application/json"

inductive Authentication
  | none
  | required
  | schemes (names : List String)
deriving DecidableEq

/-- An empty list of schemes requires nothing. -/
def Authentication.isRequired : Authentication → Bool
  | none => false
  | required => true
  | schemes names => !names.isEmpty

structure Operation where
  name : String
  group : String
  verb : Option Verb
  path : String
  parameters : List Parameter
  body : Option Body
  authentication : Authentication
deriving DecidableEq

namespace Operation

def effectiveVerb (op : Operation) : Verb := op.verb.getD ⟨"GET"⟩

def parametersIn (op : Operation) (location : ParameterLocation) : List String :=
  (op.parameters.filter (·.location == location)).map (·.name)

def documentStem (op : Operation) : String :=
  Naming.documentStem op.group op.name op.effectiveVerb.token

end Operation

structure Service where
  name : String
  operations : List Operation
  authentication : Authentication
deriving DecidableEq

/-- Operations take over the authentication of the service unless they require their own. -/
def Operation.inService (op : Operation) (service : Service) : Operation :=
  if op.authentication.isRequired then op
  else { op with authentication := service.authentication }

end RequestDocs
