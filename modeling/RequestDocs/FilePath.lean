import RequestDocs.Text.Split
/-!
# File paths

Paths as text: components between slashes, and the name and extension of the file they lead to.
-/

namespace RequestDocs.FilePath

/-- A path with one more component. A component that starts at the root of the file system replaces
the path; a slash is added where the path does not end in one. -/
def push (path component : String) : String :=
  if component.toList.head? = some '/' then component
  else if path.isEmpty || path.toList.getLast? = some '/' then path ++ component
  else path ++ "/" ++ component

def ofComponents (components : List String) : String := components.foldl push ""

def here : String := "."

def up : String := ".."

def root : String := "/"

def components (path : String) : List String :=
  let names := (Text.split '/' path).filter (!·.isEmpty)
  if path.toList.head? = some '/' then root :: names else names

/-- Components without those that change nothing; one at the start stays. -/
def normalize : List String → List String
  | [] => []
  | first :: rest => first :: rest.filter (· != here)

def fileName? (path : String) : Option String :=
  match (normalize (components path)).getLast? with
  | some name => if [here, up, root].contains name then none else some name
  | none => none

/-- The path of the directory that holds what a path leads to; the root has none. -/
def parent? (path : String) : Option String :=
  match normalize (components path) with
  | [] => none
  | names => if names = [root] then none else some (ofComponents names.dropLast)

/-- What follows the last dot of a file name, unless nothing stands before that dot. -/
def extension? (path : String) : Option String := do
  let name ← fileName? path
  match (Text.split '.' name).reverse with
  | last :: stem => if stem.all (·.isEmpty) && stem.length ≤ 1 then none else some last
  | [] => none

end RequestDocs.FilePath
