import RequestDocs.MediaType
import RequestDocs.Request.Operation
import RequestDocs.Sample.Synthesis
/-!
# Request bodies

The body section of a document: a sample, or a comment where none can be given.
-/

namespace RequestDocs

inductive BodyStatus
  | notApplicable
  | missing
  | unsupported (kind : BodyKind)
  | nonJson (contentType : String)
  | synthesized
deriving DecidableEq

def noBodyAllowed : String := "// No body allowed for this request method"

def noBodyModel : String := "// No body model found for this request"

def unsupportedBody : String := "// File body or multipart body found, not supported yet"

def nonJsonBody (contentType : String) : String :=
  "// Non-JSON body (" ++ contentType ++ "), provide the payload manually"

/-- Body lines and status of a request with a payload. Only a single body of JSON is sampled. -/
def synthesizeBody [Spelling] (g : TypeGraph) (maxDepth : Nat) (hint : String) :
    Option Body → Synthesis (List String × BodyStatus)
  | none => return ([noBodyModel], .missing)
  | some body =>
    if body.kind ≠ .single then return ([unsupportedBody], .unsupported body.kind)
    else if !isJsonContentType body.primaryContentType then
      return ([nonJsonBody body.primaryContentType], .nonJson body.primaryContentType)
    else do return (← Synthesis.synthesize g maxDepth hint body.type, .synthesized)

end RequestDocs
