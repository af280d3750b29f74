import RequestDocs.Command.Arguments
/-!
# Usage

What is printed in place of running a command.
-/

namespace RequestDocs

def programVersion : String := "0.4.1"

def usageText : String := "\n".intercalate [
  "Write editable .http request documents for the operations of an OpenAPI description.",
  "",
  "Commands:",
  "  list operations -i FILE      list every operation with its document",
  "  generate -i FILE -o DIR      write one document for each operation",
  "  help [COMMAND]...            print this text",
  "",
  "Options of generate:",
  "  --models                     also write a model for every record of a body",
  "  --max-depth N                how many records deep a body nests (3)",
  "  --host HOST                  value of the host variable (localhost)",
  "  --port PORT                  value of the port variable (8080)",
  "  --only NAMES                 generate only these operations, separated by commas",
  "  --exclude NAMES              leave out these operations, separated by commas",
  "  -v, --verbose                print every warning",
  "  -q, --quiet                  print errors only",
  "",
  "Options of every command:",
  "  --color always|auto|never    when messages are colored (auto)",
  "  --theme dark|light|auto      for which background messages are colored (auto)"]

namespace UsageError

def isRequest (e : UsageError) : Bool := [helpRequested, versionRequested].contains e

def message : UsageError → String
  | unknownArgument => "unexpected argument"
  | invalidValue => "invalid or missing value"
  | invalidNumber => "value is not a number of its range"
  | repeatedOption => "an option cannot be used multiple times"
  | unexpectedValue => "a flag takes no value"
  | missingOption => "a required option is missing"
  | missingCommand => "a command is missing"
  | unknownCommand => "unrecognized command"
  | noArguments => usageText
  | helpRequested => usageText
  | versionRequested => programVersion

end UsageError

end RequestDocs
