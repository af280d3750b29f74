import RequestDocs.Json.Printer
import RequestDocs.Sample.Scalar
/-!
# Samples

A sample is the tree of a representative value: leaves with a note on the type they stand for, and
blocks of entries. It prints as lines of JSON with comments.
-/

namespace RequestDocs

/-- A value that takes one line. -/
inductive Sample.Leaf
  | scalar (name : String)
  | literal (value : Json)
  /-- A record inside itself. -/
  | recursive (model : String)
  /-- A record below the depth limit. -/
  | cutOff (model : String)
  /-- A union, with its first literal variant if it has one. -/
  | union (labels : List String) (direct : Option Json)
  | array (label : String)
  | unknown (kind : String)
deriving Inhabited

inductive Sample
  | leaf (leaf : Sample.Leaf)
  /-- The value of a record: its name and its keys with their values. -/
  | block (model : String) (entries : List (String × Sample))
deriving Inhabited

namespace Sample

def alternatives (labels : List String) : String := String.intercalate " | " labels

def Leaf.value : Leaf → String
  | scalar name => Sample.scalar name
  | literal value => value.print
  | recursive _ => "\x7b\x7d"
  | cutOff _ => "\x7b\x7d"
  | union _ (some value) => value.print
  | union _ none => "null"
  | array _ => "[]"
  | unknown _ => "null"

def Leaf.note : Leaf → String
  | scalar name => "Scalar " ++ name
  | literal value => "Literal " ++ value.print
  | recursive model => "Model " ++ model ++ " (recursive reference)"
  | cutOff model => "Model " ++ model ++ " (depth limit reached)"
  | union labels (some _) => "Union type: " ++ alternatives labels
  | union labels none => "Union type: " ++ alternatives labels ++ " (no literal variant)"
  | array label => "Array of " ++ label
  | unknown kind => "Unknown type: " ++ kind

def modelNote (model : String) : String := "Model " ++ model

/-- What separates a value from its note. -/
def noteMark : String := " // "

def indent (depth : Nat) : String := String.ofList (List.replicate depth ' ')

def keyText (depth : Nat) (key : String) : String := indent depth ++ "\"" ++ key ++ "\": "

mutual

def entryLines (depth : Nat) : String × Sample → List String
  | (key, leaf l) => [keyText depth key ++ l.value ++ "," ++ noteMark ++ l.note]
  | (key, block model entries) =>
    (keyText depth key ++ "\x7b" ++ noteMark ++ modelNote model) ::
      (entriesLines (depth + 1) entries ++ [indent depth ++ "\x7d,"])

def entriesLines (depth : Nat) : List (String × Sample) → List String
  | [] => []
  | entry :: entries => entryLines depth entry ++ entriesLines depth entries

end

def lines : Sample → List String
  | leaf l => [l.value ++ noteMark ++ l.note]
  | block _ entries => "\x7b" :: (entriesLines 1 entries ++ ["\x7d"])

end Sample

end RequestDocs
