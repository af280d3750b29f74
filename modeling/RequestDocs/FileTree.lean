import RequestDocs.FilePath
/-!
# File trees

Files and directories in memory, with the refusals that a file system gives. A place is a list of
names below the working directory, or below the root when the list starts with it.
-/

namespace RequestDocs

inductive FileError
  | notFound
  | occupied
  | notDirectory
  | isDirectory
  | nameTooLong
  | invalidName
deriving DecidableEq

def FileError.message : FileError → String
  | notFound => "No such file or directory (os error 2)"
  | occupied => "File exists (os error 17)"
  | notDirectory => "Not a directory (os error 20)"
  | isDirectory => "Is a directory (os error 21)"
  | nameTooLong => "File name too long (os error 36)"
  | invalidName => "file name contained an unexpected NUL byte"

inductive FileEntry
  | directory
  | file (bytes : ByteArray)

/-- The entries of a tree by their places. The working directory, the directories above it and the
root need no entry. -/
structure FileTree where
  entries : List (List String × FileEntry)

namespace FileTree

def empty : FileTree := ⟨[]⟩

def maxNameLength : Nat := 255

def entry? (t : FileTree) (place : List String) : Option FileEntry :=
  if place.all (· == FilePath.up) || place = [FilePath.root] then some .directory
  else t.entries.lookup place

def above (place : List String) : List String :=
  if place = [FilePath.root] then place
  else if place.all (· == FilePath.up) then place ++ [FilePath.up]
  else place.dropLast

def step (t : FileTree) (place : List String) (name : String) : Except FileError (List String) :=
  if name = FilePath.root then return [FilePath.root]
  else match t.entry? place with
    | none => throw .notFound
    | some (.file _) => throw .notDirectory
    | some .directory =>
      if name = FilePath.here then return place
      else if name = FilePath.up then return above place
      else if maxNameLength < name.utf8ByteSize then throw .nameTooLong
      else return place ++ [name]

def locate (t : FileTree) (names : List String) : Except FileError (List String) :=
  names.foldlM t.step []

def put (t : FileTree) (place : List String) (entry : FileEntry) : FileTree :=
  ⟨t.entries.filter (·.1 != place) ++ [(place, entry)]⟩

def makeDirectory (t : FileTree) (names : List String) : Except FileError FileTree := do
  let place ← t.locate names
  match t.entry? place with
  | some _ => throw .occupied
  | none => return t.put place .directory

def isDirectory (t : FileTree) (names : List String) : Bool :=
  match t.locate names with
  | .error _ => false
  | .ok place =>
    match t.entry? place with
    | some .directory => true
    | _ => false

/-- A directory that was to be made, where one that is there already will do. -/
def ensureDirectory (t : FileTree) (names : List String) : Except FileError FileTree :=
  match t.makeDirectory names with
  | .error .occupied => if t.isDirectory names then .ok t else .error .occupied
  | result => result

/-- The names of the directories around what names lead to, the innermost first. -/
def outerNames : List String → List (List String)
  | [] => []
  | first :: rest =>
    ((List.range rest.length).reverse).map fun n => first :: rest.take n

/-- Makes directories, the first of them last. The tree keeps what was made before a refusal. -/
def makeAll (t : FileTree) : List (List String) → Except FileError Unit × FileTree
  | [] => (.ok (), t)
  | names :: rest =>
    match t.makeAll rest with
    | (.error e, t) => (.error e, t)
    | (.ok _, t) =>
      match t.ensureDirectory names with
      | .ok t => (.ok (), t)
      | .error e => (.error e, t)

/-- The directories to make, innermost first: those down from the first that can be made or is
there. -/
def missing (t : FileTree) : List (List String) → Except FileError (List (List String))
  | [] => return []
  | names :: outer =>
    match t.ensureDirectory names with
    | .ok _ => return [names]
    | .error .notFound => return names :: (← t.missing outer)
    | .error e => throw e

def makeDirectories (t : FileTree) (path : String) : Except FileError Unit × FileTree :=
  if path.contains '\x00' then (.error .invalidName, t)
  else
    let names := FilePath.components path
    let outer := (outerNames (FilePath.normalize names)).filter (· != [FilePath.root])
    if names.isEmpty then (.ok (), t)
    else match t.missing (names :: outer) with
      | .ok all => t.makeAll all
      | .error e => (.error e, t)

def write (t : FileTree) (path : String) (bytes : ByteArray) : Except FileError FileTree := do
  if path.contains '\x00' then throw .invalidName
  let place ← t.locate (FilePath.components path)
  match t.entry? place with
  | some .directory => throw .isDirectory
  | _ => return t.put place (.file bytes)

/-- The bytes of a file. A path that ends in a slash leads to no file. -/
def read? (t : FileTree) (path : String) : Option ByteArray :=
  match t.locate (FilePath.components path) with
  | .ok place =>
    match t.entry? place with
    | some (.file bytes) => if path.toList.getLast? = some '/' then none else some bytes
    | _ => none
  | .error _ => none

def below (t : FileTree) (directory : String) : List (String × Option ByteArray) :=
  t.entries.filterMap fun (place, entry) =>
    if place.head? = some directory && 1 < place.length then
      let path := FilePath.ofComponents place
      match entry with
      | .file bytes => some (path, some bytes)
      | .directory =>
        if t.entries.any fun (other, _) => place.isPrefixOf other && other != place then none
        else some (path ++ "/", none)
    else none

end FileTree

end RequestDocs
