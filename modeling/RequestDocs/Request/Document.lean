import RequestDocs.PathTemplate.Basic
import RequestDocs.Request.Operation
import RequestDocs.Text.Case
/-!
# Request documents

The sections of a document while it is filled in, and the text they make.
-/

namespace RequestDocs

/-- The values of the variables that every document declares. -/
structure DocumentOptions where
  host : String
  port : Nat
deriving DecidableEq

def DocumentOptions.default : DocumentOptions := ⟨"localhost", 8080⟩

structure Document where
  declarations : List String
  queryParams : List String
  requestLine : String
  headers : List String
  body : List String
deriving DecidableEq

namespace Document

def extension : String := "http"

def reference (name : String) : String := "\x7b\x7b" ++ name ++ "\x7d\x7d"

def declaration (name value : String) : String := "@" ++ name ++ " = " ++ value

def variablesHeading : String := "// Variables section - defines variables to use in the request"

def baseUrl : String :=
  "http://" ++ reference "host" ++ "\x7b\x7b#if port\x7d\x7d:" ++ reference "port" ++
    "\x7b\x7b/if\x7d\x7d"

def start (options : DocumentOptions) : Document where
  declarations := [variablesHeading, declaration "host" options.host,
    declaration "port" (toString options.port), declaration "baseUrl" baseUrl]
  queryParams := []
  requestLine := ""
  headers := []
  body := []

/-- The declaration of a variable whose value is left to the reader. -/
def placeholder (name : String) : String :=
  declaration name ("REPLACE_WITH_" ++ Text.toUpper name ++ "_VALUE")

/-- A blank line, a heading and one declaration for each parameter; nothing without parameters. -/
def parameterGroup (heading : String) (params : List String) : List String :=
  if params.isEmpty then [] else "" :: heading :: params.map placeholder

def addPathParams (d : Document) (params : List String) : Document :=
  { d with declarations := d.declarations ++ parameterGroup "// Path parameters" params }

def addQueryParams (d : Document) (params : List String) : Document :=
  { d with
    declarations := d.declarations ++ parameterGroup "// Query parameters" params
    queryParams := d.queryParams ++ params }

def queryString (params : List String) : String :=
  if params.isEmpty then ""
  else "?" ++ String.intercalate "&" (params.map fun p => p ++ "=" ++ reference p)

/-- Sets the request line from the query parameters added so far. -/
def setRequestLine (d : Document) (verb : Verb) (path : String) : Document :=
  { d with
    requestLine := verb.capitals ++ " " ++ reference "baseUrl" ++ substituteVariables path ++
      queryString d.queryParams }

def contentTypeHeader : String := "Content-Type: application/json"

def authorizationHeader : String := "Authorization: Bearer " ++ reference "authToken"

def authenticationGroup : List String :=
  ["", "// Authentication", declaration "authToken" "REPLACE_WITH_YOUR_AUTH_TOKEN"]

def addHeaders (d : Document) (verb : Verb) (authentication : Authentication) : Document :=
  { d with
    headers := d.headers ++ (if verb.carriesPayload then [contentTypeHeader] else []) ++
      (if authentication.isRequired then [authorizationHeader] else [])
    declarations := d.declarations ++ if authentication.isRequired then authenticationGroup else [] }

def setBody (d : Document) (lines : List String) : Document := { d with body := lines }

def head (d : Document) (name : String) : List String :=
  ["### " ++ name, ""] ++ d.declarations ++ ["", d.requestLine] ++ d.headers ++ [""]

def text (d : Document) (name : String) : String :=
  String.intercalate "\n" (d.head name ++ d.body)

end Document

end RequestDocs
