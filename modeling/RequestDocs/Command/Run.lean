import RequestDocs.Command.Arguments
import RequestDocs.Command.Listing
import RequestDocs.Command.Report
import RequestDocs.Command.Shell
import RequestDocs.OpenApi.Loading
import RequestDocs.OpenApi.Requests
/-!
# Running commands

The commands as steps in a shell.
-/

namespace RequestDocs

inductive CommandError
  | settings (cause : SettingsError)
  | load (cause : OpenApi.LoadError)
  | fault (cause : Fault)
  /-- The output directory cannot be made. -/
  | output (cause : String)
  /-- Some of the files cannot be written. -/
  | unwritten (failures : List Warning) (files : Nat)
deriving DecidableEq

def CommandError.message : CommandError → String
  | settings cause => cause.message
  | load cause => cause.message
  | fault cause => cause.message
  | output cause => cause
  | unwritten failures files =>
    toString failures.length ++ " of " ++ toString files ++ " files could not be written:\n  " ++
      "\n  ".intercalate (failures.map Warning.message)

variable {m : Type → Type} [Monad m]

def loadSource [Spelling] (shell : Shell m) (path : String) : ExceptT CommandError m Source := do
  match OpenApi.Api.load path (← shell.readFile path) with
  | .error cause => throw (.load cause)
  | .ok api =>
    match api.source with
    | .error cause => throw (.fault cause)
    | .ok source => return source

def writeInDirectory (shell : Shell m) (path text : String) : m (Except String Unit) := do
  match FilePath.parent? path with
  | none => shell.writeFile path text
  | some directory =>
    match ← shell.makeDirectories directory with
    | .error e => return .error e
    | .ok _ => shell.writeFile path text

/-- Writes files below a directory. Failures join the statistics and stop nothing. -/
def writeFiles (shell : Shell m) (directory : String) : Stats → List RenderedFile → m Stats
  | stats, [] => return stats
  | stats, file :: files => do
    let path := FilePath.push directory file.path
    match ← writeInDirectory shell path file.contents with
    | .ok _ => writeFiles shell directory stats files
    | .error e => writeFiles shell directory (stats.recordWriteFailure path e) files

/-- Prints a message after the time, unless quiet. -/
def say (shell : Shell m) (p : Palette) (quiet : Bool) (color : Color) (message : String) :
    m Unit := do
  if !quiet then shell.print (stampedLine p (← shell.time) color message)

def printReport (shell : Shell m) (p : Palette) (settings : GenerateSettings) (stats : Stats) :
    m Unit := do
  if !settings.quiet then
    (stats.figureLines p settings.options.emitModels).forM shell.print
    let warnings := stats.shownWarnings settings.verbose
    if !warnings.isEmpty then shell.print "\n"
    warnings.forM fun w => shell.printError (w.line p)

def runGenerate [Spelling] (shell : Shell m) (p : Palette) (settings : GenerateSettings) :
    ExceptT CommandError m Unit := do
  let say (color : Color) (message : String) : m Unit := say shell p settings.quiet color message
  say p.primary ("Loading OpenAPI spec from: " ++ settings.input)
  let source ← loadSource shell settings.input
  say p.primary "Generating request documents..."
  match generate source settings.options with
  | .error cause => throw (.fault cause)
  | .ok (files, stats) =>
    say p.primary ("Writing " ++ toString files.length ++ " files to: " ++ settings.output)
    match ← shell.makeDirectories settings.output with
    | .error e => throw (.output e)
    | .ok _ =>
      let stats ← (writeFiles shell settings.output stats files : m Stats)
      (printReport shell p settings stats : m Unit)
      if !stats.writeFailures.isEmpty then throw (.unwritten stats.writeFailures files.length)
      if !settings.quiet then shell.print "\n"
      say p.success "Successfully generated request documents"

def runList [Spelling] (shell : Shell m) (input : String) : ExceptT CommandError m Unit := do
  let source ← loadSource shell input
  shell.print (operationTable (operationRows source.services)).text

def Command.run [Spelling] (shell : Shell m) (p : Palette) : Command → ExceptT CommandError m Unit
  | .listOperations input => runList shell input
  | .generate command =>
    match command.settings with
    | .error cause => throw (.settings cause)
    | .ok settings => runGenerate shell p settings

end RequestDocs
