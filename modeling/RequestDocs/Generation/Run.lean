import RequestDocs.Generation.Layout
import RequestDocs.Generation.Stats
/-!
# Generation runs

The state shared by the documents of one service: names and queue live as long as the run, and the
records queued by its documents are drained as models.
-/

namespace RequestDocs

/-- Names, queue and statistics of a run. -/
structure RunState where
  registry : NameRegistry
  queue : VisitQueue TypeId
  stats : Stats

def RunState.start (stats : Stats) : RunState := ⟨.empty, .empty, stats⟩

/-- A step of a run. What changed before a fault stays changed. -/
abbrev Run := EStateM Fault RunState

namespace Run

/-- A synthesis with the names and the queue of the run, and the issues it meets. -/
def synthesis {α : Type} (step : Synthesis α) : Run (α × List Issue) := fun s =>
  match step ⟨s.registry, s.queue, []⟩ with
  | .ok value t => .ok (value, t.issues) { s with registry := t.registry, queue := t.queue }
  | .error fault t => .error fault { s with registry := t.registry, queue := t.queue }

def record (change : Stats → Stats) : Run Unit :=
  modify fun s => { s with stats := change s.stats }

def assemble [Spelling] (g : TypeGraph) (options : AssemblyOptions) (op : Operation) :
    Run RequestDocument := do
  let (document, issues) ← synthesis (RequestDocs.assemble g options op)
  record (·.recordDocument document.operation document.bodyStatus document.templateError op.path)
  record (·.recordIssues op.name issues)
  return document

def skip (op : Operation) (reason : String) : Run Unit := record (·.recordSkipped op.name reason)

def dequeue : Run (Option TypeId) := do
  let state ← get
  let (item, queue) := state.queue.dequeue
  set { state with queue }
  return item

/-- The name of a record with a hint, without queueing it. -/
def nameFor [Spelling] (g : TypeGraph) (id : TypeId) (hint : String) : Run String := do
  let state ← get
  let (name, registry) ← liftFault (state.registry.nameFor g id hint)
  set { state with registry }
  return name

def nameDependency [Spelling] (g : TypeGraph) (model : String) (id : TypeId) : Run String := do
  let name ← nameFor g id (model ++ "Item")
  modify fun s => { s with queue := (s.queue.enqueue id).2 }
  return name

def model [Spelling] (g : TypeGraph) (maxDepth : Nat) (id : TypeId) : Run Model := do
  let name ← nameFor g id "Model"
  let (lines, issues) ← synthesis (Synthesis.synthesize g maxDepth name id)
  record (·.recordIssues name issues)
  let dependencies ← (← liftFault (g.nestedRecords id)).mapM (nameDependency g name)
  return ⟨name, lines, dependencies⟩

/-- The models of the queued records and of those that join the queue meanwhile. -/
def drainQueue [Spelling] (g : TypeGraph) (maxDepth : Nat) : (fuel : Nat) →
    Run (List (TypeId × Model))
  | 0 => throw .exhausted
  | fuel + 1 => do
    match ← dequeue with
    | none => return []
    | some id =>
      let m ← model g maxDepth id
      return (id, m) :: (← drainQueue g maxDepth fuel)

/-- All models still to be written. Each id leaves the queue at most once, so the graph has enough
fuel. -/
def drain [Spelling] (g : TypeGraph) (maxDepth : Nat) : Run (List (TypeId × Model)) := do
  let models ← drainQueue g maxDepth (g.size + (← get).queue.pending.length + 1)
  record (·.recordModels models.length)
  return models

end Run

end RequestDocs
