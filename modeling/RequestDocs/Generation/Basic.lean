import RequestDocs.Generation.Run
/-!
# Generation

From services and their types to files: documents for the selected operations of each service, and
models when they are asked for.
-/

namespace RequestDocs

/-- Services with the graph of their types, and the pointers of declared types into the document
they were read from. -/
structure Source where
  services : List Service
  types : TypeGraph
  pointers : List (TypeId × String)

structure GenerateOptions where
  assembly : AssemblyOptions
  emitModels : Bool
  only : Option (List String)
  exclude : Option (List String)
  sourceLabel : String
deriving DecidableEq

def GenerateOptions.exclusionReason (options : GenerateOptions) (name : String) : Option String :=
  if (options.only.map fun names => !names.contains name).getD false then
    some "not selected by --only"
  else if (options.exclude.map fun names => names.contains name).getD false then
    some "excluded by --exclude"
  else none

/-- The documents of operations, with file names apart from those `used`. -/
def generateDocuments [Spelling] (g : TypeGraph) (options : GenerateOptions) (service : Service) :
    (used : List String) → List Operation → Run (List DocumentFile)
  | _, [] => return []
  | used, op :: ops => do
    match options.exclusionReason op.name with
    | some reason =>
      Run.skip op reason
      generateDocuments g options service used ops
    | none =>
      let document ← Run.assemble g options.assembly (op.inService service)
      let stem := Naming.unique document.stem used
      return ⟨stem, document.contents⟩ :: (← generateDocuments g options service (stem :: used) ops)

def modelPointers (pointers : List (TypeId × String)) (models : List (TypeId × Model)) :
    List (String × String) :=
  models.filterMap fun (id, m) => (pointers.lookup id).map (m.name, ·)

def generateService [Spelling] (source : Source) (options : GenerateOptions) (service : Service) :
    Run ServiceOutput := do
  Run.record (·.recordService)
  let documents ← generateDocuments source.types options service [] service.operations
  let models ← if options.emitModels then Run.drain source.types options.assembly.maxDepth
    else pure []
  return {
    name := service.name
    documents
    models := models.map (·.2)
    pointers := modelPointers source.pointers models }

/-- The outputs of services, each from a run of its own, and the statistics of all. -/
def generateServices [Spelling] (source : Source) (options : GenerateOptions) :
    Stats → List Service → Except Fault (List ServiceOutput × Stats)
  | stats, [] => return ([], stats)
  | stats, service :: services =>
    match generateService source options service (.start stats) with
    | .error fault _ => .error fault
    | .ok output state => do
      let (outputs, stats) ← generateServices source options state.stats services
      return (output :: outputs, stats)

def generate [Spelling] (source : Source) (options : GenerateOptions) :
    Except Fault (List RenderedFile × Stats) := do
  let (outputs, stats) ← generateServices source options .zero source.services
  return (← Layout.files options.sourceLabel outputs, stats)

end RequestDocs
