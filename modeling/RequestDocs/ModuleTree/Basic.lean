import RequestDocs.Fault
import RequestDocs.TreePath
/-!
# Module trees

The output as a tree of modules. A module is a file when it has imports or lines of its own, and the
directory of the modules it declares.
-/

namespace RequestDocs

/-- The identity of a module: its place in the order of creation, or the detached module, which
belongs to no tree. -/
inductive ModuleId
  | detached
  | node (index : Nat)
deriving DecidableEq

inductive ImportBinder
  | default (name : String)
  | everything (name : String)
  | named (names : List String)
deriving DecidableEq

def ImportBinder.text : ImportBinder → String
  | default name => name
  | everything name => "* as " ++ name
  | named names => "\x7b " ++ String.intercalate ", " names ++ " \x7d"

/-- Where an import comes from: a module of the tree, or a text used as it is. -/
inductive ImportSource
  | module (id : ModuleId)
  | literal (text : String)
deriving DecidableEq

structure Import where
  binder : ImportBinder
  source : ImportSource
deriving DecidableEq

inductive Declaration
  | line (text : String)
  | block (lines : List String)
  | module (id : ModuleId)
deriving DecidableEq

/-- A module. Its group is a tag only. -/
structure Module where
  name : String
  path : TreePath
  group : Option String
  extension : Option String
  imports : List Import
  declarations : List Declaration
deriving DecidableEq

namespace Module

def fresh (name : String) (path : TreePath) (group extension : Option String) : Module :=
  ⟨name, path, group, extension, [], []⟩

/-- The module at the root of every tree, which is also what the detached module looks like. -/
def root : Module := fresh "" .root none none

def isNested : Declaration → Bool
  | .module _ => true
  | _ => false

/-- Whether the module is a file. -/
def hasContent (m : Module) : Bool :=
  !m.imports.isEmpty || m.declarations.any fun d => !isNested d

def fileName (m : Module) : String :=
  match m.extension with
  | some extension => m.name ++ "." ++ extension
  | none => m.name

def children (m : Module) : List ModuleId :=
  m.declarations.filterMap fun
    | .module id => some id
    | _ => none

end Module

/-- The modules by order of creation; the first is the root. -/
structure ModuleTree where
  modules : Array Module
deriving DecidableEq

namespace ModuleTree

def empty : ModuleTree := ⟨#[Module.root]⟩

def root : ModuleId := .node 0

def get (t : ModuleTree) : ModuleId → Except Fault Module
  | .detached => .ok Module.root
  | .node index =>
    match t.modules[index]? with
    | some m => .ok m
    | none => .error (.foreignModule index)

def update (t : ModuleTree) (action : ModuleAction) (change : Module → Module) :
    ModuleId → Except Fault ModuleTree
  | .detached => .error (.detached action)
  | .node index =>
    match t.modules[index]? with
    | some m => .ok ⟨t.modules.setIfInBounds index (change m)⟩
    | none => .error (.foreignModule index)

def declare (t : ModuleTree) (id : ModuleId) (declaration : Declaration) :
    Except Fault ModuleTree :=
  t.update .declare (fun m => { m with declarations := m.declarations ++ [declaration] }) id

/-- A new module below `parent`, which declares it. -/
def attach (t : ModuleTree) (name : String) (parent : ModuleId)
    (group extension : Option String) : Except Fault (ModuleId × ModuleTree) := do
  let id := ModuleId.node t.modules.size
  let path := (← t.get parent).path.enter [name]
  let t ← t.update .attach
    (fun m => { m with declarations := m.declarations ++ [.module id] }) parent
  return (id, ⟨t.modules.push (Module.fresh name path group extension)⟩)

def createModule (t : ModuleTree) (name : String) (parent : ModuleId) (group : Option String) :
    Except Fault (ModuleId × ModuleTree) :=
  t.attach name parent group none

/-- A new file below `parent`, in the group of its parent. -/
def createFile (t : ModuleTree) (name extension : String) (parent : ModuleId) :
    Except Fault (ModuleId × ModuleTree) := do
  t.attach name parent (← t.get parent).group (some extension)

/-- A new import of a module. Nothing is imported from the detached module. -/
def addImport (t : ModuleTree) (id : ModuleId) (item : Import) : Except Fault ModuleTree :=
  if item.source = .module .detached then .error (.detached .importFrom)
  else t.update .importInto (fun m => { m with imports := m.imports ++ [item] }) id

def inGroup (t : ModuleTree) (group : String) : List ModuleId :=
  ((List.range t.modules.size).filter fun index =>
    (t.modules[index]?.bind (·.group)) == some group).map .node

end ModuleTree

end RequestDocs
