/-!
# Synthesis issues

Values that stand in for a type without saying what it is.
-/

namespace RequestDocs

/-- A degraded value, by the path of the field it belongs to. -/
inductive Issue
  | unrepresentableUnion (path variants : String)
  | unmappedScalar (path scalar : String)
deriving DecidableEq

namespace Issue

def path : Issue → String
  | unrepresentableUnion path _ => path
  | unmappedScalar path _ => path

def message : Issue → String
  | unrepresentableUnion path variants =>
    "'" ++ path ++ "' is a union without a literal variant (" ++ variants ++ ")"
  | unmappedScalar path scalar =>
    "'" ++ path ++ "' uses scalar '" ++ scalar ++ "' which has no sample value"

end Issue

end RequestDocs
