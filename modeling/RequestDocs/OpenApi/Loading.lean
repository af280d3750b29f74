import RequestDocs.FilePath
import RequestDocs.Json.Reader
import RequestDocs.OpenApi.YamlForm
/-!
# Loading descriptions

The description in a file, which is JSON or YAML by the extension of its name.
-/

namespace RequestDocs.OpenApi

inductive Notation
  | json
  | yaml
deriving DecidableEq

namespace Notation

def name : Notation → String
  | json => "json"
  | yaml => "yaml"

/-- The notation that an extension tells; letters of either case are the same. -/
def ofExtension (extension : String) : Notation :=
  if ["yaml", "yml"].contains (extension.map Char.toLower) then yaml else json

def ofPath (path : String) : Notation := ((FilePath.extension? path).map ofExtension).getD json

end Notation

inductive LoadError
  | unreadable (path : String)
  | malformedJson
  | notText
  | malformedYaml
deriving DecidableEq

def LoadError.message : LoadError → String
  | unreadable path => "Failed to open " ++ path
  | malformedJson => "Failed to parse JSON specification"
  | notText => "Specification is not valid UTF-8"
  | malformedYaml => "Failed to parse YAML specification"

def Api.ofText? : Notation → String → Option Api
  | .json, text => (Json.read? text).bind Api.read?
  | .yaml, text => (Yaml.read? text).bind Api.ofYaml?

def Api.ofBytes (format : Notation) (bytes : ByteArray) : Except LoadError Api :=
  match format, String.fromUTF8? bytes with
  | .json, text? => ((text?.bind (Api.ofText? .json)).map Except.ok).getD (.error .malformedJson)
  | .yaml, none => .error .notText
  | .yaml, some text => ((Api.ofText? .yaml text).map Except.ok).getD (.error .malformedYaml)

def Api.load (path : String) (bytes? : Option ByteArray) : Except LoadError Api :=
  match bytes? with
  | none => .error (.unreadable path)
  | some bytes => Api.ofBytes (.ofPath path) bytes

end RequestDocs.OpenApi
