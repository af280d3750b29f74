import RequestDocs.Naming.Identifier
import RequestDocs.Text.Case
/-!
# Operation names

The name of an operation that declares none, and the file stem of its document.
-/

namespace RequestDocs.Naming

open Text

/-- A path segment as a word of a name; a parameter in braces reads `by_id`. -/
def segmentWord (segment : List Char) : List Char :=
  if segment.head? = some '{' && segment.getLast? = some '}' then "by_id".toList else segment

def pathWords (path : String) : List (List Char) :=
  ((splitOn '/' path.toList).filter (!·.isEmpty)).map segmentWord

def operationId [Spelling] (verb path : String) : String :=
  sanitize (String.ofList (joinWith '_' ((toLower verb).toList :: pathWords path)))

/-- `<group>_<operation>_<verb>` with group and verb in lower case. -/
def documentStem (group operation verb : String) : String :=
  toLower group ++ "_" ++ operation ++ "_" ++ toLower verb

end RequestDocs.Naming
