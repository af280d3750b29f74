import RequestDocs.FileTree
/-!
# Shells

What a command asks of its surroundings, and a shell that keeps it all in memory.
-/

namespace RequestDocs

/-- The surroundings of a command. A refusal to make a directory or write a file is a text. -/
structure Shell (m : Type → Type) where
  readFile : String → m (Option ByteArray)
  makeDirectories : String → m (Except String Unit)
  writeFile : String → String → m (Except String Unit)
  print : String → m Unit
  printError : String → m Unit
  /-- The time of day as hours, minutes and seconds. -/
  time : m String

/-- Files and printed text. -/
structure Session where
  files : FileTree
  output : String
  errors : String

namespace Session

def start (files : FileTree) : Session := ⟨files, "", ""⟩

/-- The shell of a session; its clock stands still. -/
def shell (time : String) : Shell (StateM Session) where
  readFile path := return (← get).files.read? path
  makeDirectories path := modifyGet fun s =>
    let (result, files) := s.files.makeDirectories path
    (result.mapError (·.message), { s with files })
  writeFile path text := modifyGet fun s =>
    match s.files.write path text.toUTF8 with
    | .ok files => (.ok (), { s with files })
    | .error e => (.error e.message, s)
  print text := modify fun s => { s with output := s.output ++ text }
  printError text := modify fun s => { s with errors := s.errors ++ text }
  time := return time

end Session

end RequestDocs
