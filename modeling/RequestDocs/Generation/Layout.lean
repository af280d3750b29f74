import RequestDocs.ModuleTree.Render
import RequestDocs.Request.Document
/-!
# Output layout

Where documents and models go: a folder for each service, with its documents and a folder of models
that import one another.
-/

namespace RequestDocs

structure DocumentFile where
  stem : String
  contents : String
deriving DecidableEq

/-- The sample of a record as a file of its own, with the names of the records it nests. -/
structure Model where
  name : String
  lines : List String
  dependencies : List String
deriving DecidableEq

/-- What is generated for a service. Pointers into the source are keyed by model name. -/
structure ServiceOutput where
  name : String
  documents : List DocumentFile
  models : List Model
  pointers : List (String × String)
deriving DecidableEq

namespace Layout

def modelsDirectory : String := "models"

def modelExtension : String := "jsonc"

def addDocuments (parent : ModuleId) : ModuleTree → List DocumentFile → Except Fault ModuleTree
  | t, [] => return t
  | t, d :: ds => do
    let (id, t) ← t.createFile d.stem Document.extension parent
    addDocuments parent (← t.declare id (.line d.contents)) ds

def createModels (parent : ModuleId) :
    ModuleTree → List Model → Except Fault (List (String × ModuleId) × ModuleTree)
  | t, [] => return ([], t)
  | t, m :: ms => do
    let (id, t) ← t.createFile m.name modelExtension parent
    let (ids, t) ← createModels parent t ms
    return ((m.name, id) :: ids, t)

/-- The file of a model name; a repeated name stands for its last file. -/
def modelFile? (ids : List (String × ModuleId)) (name : String) : Option ModuleId :=
  ids.reverse.lookup name

def addDependencies (ids : List (String × ModuleId)) (id : ModuleId) :
    ModuleTree → List String → Except Fault ModuleTree
  | t, [] => return t
  | t, dependency :: rest => do
    match modelFile? ids dependency with
    | some target =>
      if target = id then addDependencies ids id t rest
      else
        let t ← t.addImport id ⟨.default dependency, .module target⟩
        addDependencies ids id t rest
    | none => addDependencies ids id t rest

def addPointer (label : String) (pointers : List (String × String)) (id : ModuleId) (name : String)
    (t : ModuleTree) : Except Fault ModuleTree :=
  match pointers.lookup name with
  | some pointer => t.addImport id ⟨.named [name], .literal (label ++ pointer)⟩
  | none => return t

def fillModels (label : String) (ids : List (String × ModuleId)) (pointers : List (String × String)) :
    ModuleTree → List Model → Except Fault ModuleTree
  | t, [] => return t
  | t, m :: ms => do
    match modelFile? ids m.name with
    | some id =>
      let t ← addDependencies ids id t m.dependencies
      let t ← addPointer label pointers id m.name t
      fillModels label ids pointers (← t.declare id (.block m.lines)) ms
    | none => fillModels label ids pointers t ms

/-- The models of a service, in a folder of their own when there are any. -/
def addModels (label : String) (service : ServiceOutput) (parent : ModuleId) (t : ModuleTree) :
    Except Fault ModuleTree :=
  if service.models.isEmpty then return t
  else do
    let (directory, t) ← t.createModule modelsDirectory parent (some service.name)
    let (ids, t) ← createModels directory t service.models
    fillModels label ids service.pointers t service.models

def addService (label : String) (t : ModuleTree) (service : ServiceOutput) :
    Except Fault ModuleTree := do
  let (id, t) ← t.createModule service.name ModuleTree.root (some service.name)
  let t ← addDocuments id t service.documents
  addModels label service id t

/-- The files of all services. The label names the source document in pointers. -/
def files (label : String) (services : List ServiceOutput) : Except Fault (List RenderedFile) := do
  (← services.foldlM (addService label) ModuleTree.empty).render

end Layout

end RequestDocs
