import RequestDocs.Generation.Basic
import RequestDocs.Terminal.Table
/-!
# Listing operations

The operations of a source with the documents that are generated for them, in a table.
-/

namespace RequestDocs

structure OperationRow where
  name : String
  verb : Verb
  path : String
  document : String
deriving DecidableEq

/-- The row of an operation. The document is where it is written unless an earlier document of the
service has its name. -/
def operationRow (service : Service) (op : Operation) : OperationRow where
  name := op.name
  verb := op.effectiveVerb
  path := op.path
  document := service.name ++ "/" ++ op.documentStem ++ "." ++ Document.extension

/-- The rows of services, by name; rows of one name keep their order. -/
def operationRows (services : List Service) : List OperationRow :=
  (services.flatMap fun s => s.operations.map (operationRow s)).mergeSort
    fun a b => decide (a.name ≤ b.name)

def operationTable (rows : List OperationRow) : Table where
  header := ["OPERATION", "METHOD", "PATH", "DOCUMENT"].map (Cell.ofText · .left)
  rows := rows.map fun row =>
    [.ofText row.name .left, .ofText row.verb.token .right, .ofText row.path .left,
      .ofText row.document .left]

end RequestDocs
