import RequestDocs.PathTemplate.Validation
import RequestDocs.Request.Body
import RequestDocs.Request.Document
/-!
# Assembly

The document of an operation. Nothing is refused: bodies that cannot be sampled become comments,
and a malformed path is only reported.
-/

namespace RequestDocs

structure RequestDocument where
  operation : String
  stem : String
  contents : String
  bodyStatus : BodyStatus
  templateError : Option TemplateError
deriving DecidableEq

structure AssemblyOptions where
  document : DocumentOptions
  maxDepth : Nat
deriving DecidableEq

/-- The path of an operation as it is written; an empty one stands for the root. -/
def Operation.writtenPath (op : Operation) : String := if op.path.isEmpty then "/" else op.path

def Operation.draft (op : Operation) (options : DocumentOptions) : Document :=
  let d := Document.start options
  let d := d.addPathParams (uniqueTemplateParams op.writtenPath)
  let d := d.addQueryParams (op.parametersIn .query)
  let d := d.setRequestLine op.effectiveVerb op.writtenPath
  d.addHeaders op.effectiveVerb op.authentication

def Operation.bodyHint [Spelling] (op : Operation) : String := Naming.typeName op.name ++ "Body"

def Operation.bodySection [Spelling] (op : Operation) (g : TypeGraph) (maxDepth : Nat) :
    Synthesis (List String × BodyStatus) :=
  if op.effectiveVerb.carriesPayload then synthesizeBody g maxDepth op.bodyHint op.body
  else return ([noBodyAllowed], .notApplicable)

def assemble [Spelling] (g : TypeGraph) (options : AssemblyOptions) (op : Operation) :
    Synthesis RequestDocument := do
  let (lines, bodyStatus) ← op.bodySection g options.maxDepth
  return {
    operation := op.name
    stem := op.documentStem
    contents := ((op.draft options.document).setBody lines).text op.name
    bodyStatus
    templateError := checkTemplate op.writtenPath }

end RequestDocs
