/-!
# Maps in key order

Association lists sorted by key, each key once.
-/

namespace RequestDocs

/-- An entry at its place; it replaces an entry of the same key. -/
def insertEntry {α : Type} (key : String) (value : α) : List (String × α) → List (String × α)
  | [] => [(key, value)]
  | (k, v) :: entries =>
    if key < k then (key, value) :: (k, v) :: entries
    else if key = k then (key, value) :: entries
    else (k, v) :: insertEntry key value entries

/-- Entries in key order; of a repeated key the last entry stays. -/
def sortByKey {α : Type} (entries : List (String × α)) : List (String × α) :=
  entries.foldl (fun sorted entry => insertEntry entry.1 entry.2 sorted) []

def sortTexts (texts : List String) : List String :=
  (sortByKey (texts.map fun text => (text, ()))).map (·.1)

end RequestDocs
