import RequestDocs.Command.Run
import RequestDocs.Command.Usage
import Std.Time.Zoned
/-!
# Command line program

The commands in the shell of the operating system.
-/

namespace RequestDocs

private def systemText (code : UInt32) (details : String) : String :=
  details ++ " (os error " ++ toString code.toNat ++ ")"

private def errorText : IO.Error → String
  | .alreadyExists _ code details => systemText code details
  | .noFileOrDirectory _ code details => systemText code details
  | .inappropriateType _ code details => systemText code details
  | .invalidArgument _ code details => systemText code details
  | .permissionDenied _ code details => systemText code details
  | .resourceExhausted _ code details => systemText code details
  | e => toString e

private def attempt (action : IO Unit) : IO (Except String Unit) := do
  try
    action
    return .ok ()
  catch e => return .error (errorText e)

private def twoDigits (n : Int) : String := if n < 10 then "0" ++ toString n else toString n

private def localTime : IO String := do
  let now ← Std.Time.PlainDateTime.now
  return ":".intercalate [twoDigits now.hour.val, twoDigits now.minute.val,
    twoDigits now.second.val]

def systemShell : Shell IO where
  readFile path := do
    try return some (← IO.FS.readBinFile path)
    catch _ => return none
  makeDirectories path := attempt (IO.FS.createDirAll path)
  writeFile path text := attempt (IO.FS.writeFile path text)
  print text := IO.print text
  printError text := IO.eprint text
  time := localTime

/-- The program, given the spelling of texts outside ASCII. -/
def program [Spelling] (args : List String) : IO UInt32 := do
  match readArguments args with
  | .error e =>
    if e.isRequest then
      IO.println e.message
      return 0
    else
      IO.eprintln ("error: " ++ e.message)
      return 2
  | .ok invocation =>
    let terminal ← (← IO.getStdout).isTty
    let palette := invocation.palette terminal (← IO.getEnv "COLORFGBG")
    match ← (invocation.command.run systemShell palette).run with
    | .ok _ => return 0
    | .error e =>
      IO.eprintln ("Error: " ++ e.message)
      return 1

end RequestDocs
