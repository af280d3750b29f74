import RequestDocs.Naming.Spelling
/-!
# Identifiers

Every name is made from the chunks of a text: the maximal runs of ASCII letters and digits in its
spelling. `sanitize` joins them by underscores, `typeName` and `fieldName` recase them.
-/

namespace RequestDocs.Naming

open Text

/-- The maximal runs of ASCII letters and digits of a text. -/
def chunks [Spelling] (s : String) : List (List Char) :=
  (splitWhere (fun c => !c.isAlphanum) (s.toList.flatMap Spelling.ascii)).filter (!·.isEmpty)

def sanitize [Spelling] (s : String) : String := String.ofList (joinWith '_' (chunks s))

/-- The type-name form before its first character is checked: a single chunk of mixed case keeps
its case. -/
def pascalCase [Spelling] : List (List Char) → List Char
  | [chunk] => if chunk.any Char.isLower then capitalize chunk else Spelling.pascal chunk
  | cs => Spelling.pascal (joinWith '_' cs)

def startsWithDigit (word : List Char) : Bool := (word.head?.map Char.isDigit).getD false

def unnamed : String := "Unnamed"

/-- The name of a model, service or anonymous type. A name never starts with a digit. -/
def typeName [Spelling] (s : String) : String :=
  match chunks s with
  | [] => unnamed
  | cs =>
    let name := pascalCase cs
    String.ofList (if startsWithDigit name then 'T' :: name else name)

/-- The words of a chunk. Acronyms stay together: `HTTPStatus` is `HTTP` and `Status`. -/
def caseWords : List Char → List (List Char) :=
  cutBefore fun p c rest =>
    c.isUpper && (p.isLower || p.isDigit ||
      (p.isUpper && (rest.head?.map Char.isLower).getD false))

def words [Spelling] (s : String) : List (List Char) := (chunks s).flatMap caseWords

/-- The first word in lower case and every other one capitalized. -/
def camelCase : List (List Char) → List Char
  | [] => []
  | word :: rest => lowercase word ++ rest.flatMap fun w => capitalize (lowercase w)

/-- The key of a record field in a body; a text without words is its own key. -/
def fieldName [Spelling] (s : String) : String :=
  match words s with
  | [] => s
  | ws => String.ofList (camelCase ws)

end RequestDocs.Naming
