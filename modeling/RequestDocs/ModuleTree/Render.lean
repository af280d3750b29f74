import RequestDocs.ModuleTree.Basic
import RequestDocs.FilePath
/-!
# Rendering module trees

The files of a tree, with every import turned into the way from one file to another.
-/

namespace RequestDocs

structure RenderedFile where
  path : String
  contents : String
deriving DecidableEq

def Module.filePath (m : Module) : String :=
  FilePath.push (FilePath.ofComponents m.path.directory.segments) m.fileName

namespace ModuleTree

/-- The segments from the directory that holds one module to another. -/
def relativePath (t : ModuleTree) (source target : ModuleId) : Except Fault (List String) := do
  if source = .detached || target = .detached then throw (.detached .resolvePath)
  let source ← t.get source
  let target ← t.get target
  return source.path.directory.relative target.path TreePath.parentSegment

def replaceLast (segments : List String) (last : String) : List String :=
  if segments.isEmpty then [] else segments.dropLast ++ [last]

/-- The text by which one module imports another; it starts with `./` or `..`. -/
def importSpecifier (t : ModuleTree) (source target : ModuleId) : Except Fault String := do
  let segments ← t.relativePath source target
  let file := (← t.get target).fileName
  let joined := String.intercalate "/" (replaceLast segments file)
  return if TreePath.parentSegment.toList.isPrefixOf joined.toList then joined else "./" ++ joined

def importLine (t : ModuleTree) (id : ModuleId) (item : Import) : Except Fault String := do
  let source ← match item.source with
    | .module target => t.importSpecifier id target
    | .literal text => pure text
  return "// import " ++ item.binder.text ++ " from \"" ++ source ++ "\""

def declarationLines : Declaration → List String
  | .line text => [text]
  | .block lines => lines
  | .module _ => []

def contents (t : ModuleTree) (id : ModuleId) (m : Module) : Except Fault String := do
  let imports ← m.imports.mapM (t.importLine id)
  return String.intercalate "\n" (imports ++ m.declarations.flatMap declarationLines)

/-- The file of a module itself; the root and modules without content have none. -/
def ownFile (t : ModuleTree) (id : ModuleId) (m : Module) : Except Fault (List RenderedFile) := do
  if id = root || !m.hasContent then return []
  else return [⟨m.filePath, ← t.contents id m⟩]

/-- The files of a module and of the modules below it, depth first. -/
def renderBelow (t : ModuleTree) : (fuel : Nat) → ModuleId → Except Fault (List RenderedFile)
  | 0, _ => throw .exhausted
  | fuel + 1, id => do
    let m ← t.get id
    let file ← t.ownFile id m
    return file ++ (← m.children.mapM (t.renderBelow fuel)).flatten

def render (t : ModuleTree) : Except Fault (List RenderedFile) :=
  t.renderBelow (t.modules.size + 1) root

end ModuleTree

end RequestDocs
