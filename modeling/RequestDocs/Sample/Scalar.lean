/-!
# Scalar samples

One fixed value for each scalar kind.
-/

namespace RequestDocs.Sample

/-- Scalar names with the JSON text of their sample. -/
def scalarTable : List (List String × String) := [
  (["string"], "\"example\""),
  (["boolean"], "true"),
  (["number"], "123"),
  (["integer", "int8", "int16", "int32", "int64", "uint8", "uint16", "uint32", "uint64"], "42"),
  (["float32", "float"], "3.14"),
  (["float64", "double"], "3.14159"),
  (["decimal"], "99.99"),
  (["safeint"], "9007199254740991"),
  (["bytes"], "\"aGVsbG8=\""),
  (["date", "plainDate"], "\"2024-01-01\""),
  (["datetime", "utcDateTime", "offsetDateTime"], "\"2024-01-01T12:00:00Z\""),
  (["duration"], "\"P1DT2H3M4S\""),
  (["guid", "uuid"], "\"123e4567-e89b-12d3-a456-426614174000\"")]

def scalar? (name : String) : Option String :=
  (scalarTable.find? fun row => row.1.contains name).map (·.2)

def fallbackNumber : String := "123"

def scalar (name : String) : String := (scalar? name).getD fallbackNumber

end RequestDocs.Sample
