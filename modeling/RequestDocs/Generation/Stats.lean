import RequestDocs.Request.Assembly
/-!
# Statistics

The counters of a generation and the warnings it gives.
-/

namespace RequestDocs

inductive Warning
  | unsupportedBody (operation : String) (kind : BodyKind)
  | nonJsonBody (operation contentType : String)
  | missingBodyModel (operation : String)
  | unrepresentableUnion (operation field variants : String)
  | unmappedScalar (operation field scalar : String)
  | malformedPathTemplate (path : String) (error : TemplateError)
  | skippedOperation (operation reason : String)
  | writeFailed (path error : String)
deriving DecidableEq

namespace Warning

def message : Warning → String
  | unsupportedBody operation kind =>
    "[" ++ operation ++ "] " ++ kind.name ++ " body is not supported, wrote a placeholder"
  | nonJsonBody operation contentType =>
    "[" ++ operation ++ "] body content type '" ++ contentType ++
      "' is not JSON, wrote a placeholder"
  | missingBodyModel operation => "[" ++ operation ++ "] payload method without a body model"
  | unrepresentableUnion operation field variants =>
    "[" ++ operation ++ "] '" ++ field ++ "' has no literal variant (" ++ variants ++
      "), used null"
  | unmappedScalar operation field scalar =>
    "[" ++ operation ++ "] '" ++ field ++ "' uses unmapped scalar '" ++ scalar ++
      "', used a generic number"
  | malformedPathTemplate path error => "Path template '" ++ path ++ "': " ++ error.message
  | skippedOperation operation reason => "Operation '" ++ operation ++ "': " ++ reason
  | writeFailed path error => "Failed to write '" ++ path ++ "': " ++ error

/-- Whether an operation or file was left out. -/
def isSkippedItem : Warning → Bool
  | skippedOperation .. => true
  | writeFailed .. => true
  | _ => false

def isWriteFailure : Warning → Bool
  | writeFailed .. => true
  | _ => false

def ofIssue (name : String) : Issue → Warning
  | .unrepresentableUnion path variants => unrepresentableUnion name path variants
  | .unmappedScalar path scalar => unmappedScalar name path scalar

end Warning

structure Stats where
  services : Nat
  operationsSeen : Nat
  documentsGenerated : Nat
  bodiesSynthesized : Nat
  modelsGenerated : Nat
  warnings : List Warning
deriving DecidableEq

namespace Stats

def zero : Stats := ⟨0, 0, 0, 0, 0, []⟩

def recordWarnings (s : Stats) (warnings : List Warning) : Stats :=
  { s with warnings := s.warnings ++ warnings }

def recordService (s : Stats) : Stats := { s with services := s.services + 1 }

def recordSkipped (s : Stats) (operation reason : String) : Stats :=
  { s with operationsSeen := s.operationsSeen + 1 }.recordWarnings
    [.skippedOperation operation reason]

def statusWarning (operation : String) : BodyStatus → List Warning
  | .missing => [.missingBodyModel operation]
  | .unsupported kind => [.unsupportedBody operation kind]
  | .nonJson contentType => [.nonJsonBody operation contentType]
  | .synthesized => []
  | .notApplicable => []

def templateWarning (path : String) (error : Option TemplateError) : List Warning :=
  (error.map (.malformedPathTemplate path)).toList

def recordDocument (s : Stats) (operation : String) (status : BodyStatus)
    (error : Option TemplateError) (path : String) : Stats :=
  { s with
    operationsSeen := s.operationsSeen + 1
    documentsGenerated := s.documentsGenerated + 1
    bodiesSynthesized := s.bodiesSynthesized + if status = BodyStatus.synthesized then 1 else 0
    }.recordWarnings (statusWarning operation status ++ templateWarning path error)

def recordIssues (s : Stats) (name : String) (issues : List Issue) : Stats :=
  s.recordWarnings (issues.map (.ofIssue name))

def recordModels (s : Stats) (count : Nat) : Stats :=
  { s with modelsGenerated := s.modelsGenerated + count }

def recordWriteFailure (s : Stats) (path error : String) : Stats :=
  s.recordWarnings [.writeFailed path error]

def writeFailures (s : Stats) : List Warning := s.warnings.filter (·.isWriteFailure)

def skipped (s : Stats) : Nat := s.operationsSeen - s.documentsGenerated

end Stats

end RequestDocs
