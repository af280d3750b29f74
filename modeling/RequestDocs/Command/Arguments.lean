import RequestDocs.Command.Basic
/-!
# Arguments

The invocation that the arguments of a command line spell. Every level of commands has options of
its own; those for colors hold at every level.
-/

namespace RequestDocs

/-- Why arguments make up no invocation, or ask for a text about the program instead. -/
inductive UsageError
  | unknownArgument
  /-- A value that is missing, empty or not among the possible ones. -/
  | invalidValue
  /-- A value that is no number of its range. -/
  | invalidNumber
  | repeatedOption
  | unexpectedValue
  | missingOption
  | missingCommand
  | unknownCommand
  | noArguments
  | helpRequested
  | versionRequested
deriving DecidableEq

inductive CommandOption
  | color
  | theme
  | input
  | output
  | models
  | maxDepth
  | host
  | port
  | only
  | exclude
  | verbose
  | quiet
  | help
  | version
deriving DecidableEq

namespace CommandOption

def long : CommandOption → String
  | color => "color"
  | theme => "theme"
  | input => "input"
  | output => "output"
  | models => "models"
  | maxDepth => "max-depth"
  | host => "host"
  | port => "port"
  | only => "only"
  | exclude => "exclude"
  | verbose => "verbose"
  | quiet => "quiet"
  | help => "help"
  | version => "version"

def short? : CommandOption → Option Char
  | input => some 'i'
  | output => some 'o'
  | verbose => some 'v'
  | quiet => some 'q'
  | help => some 'h'
  | version => some 'V'
  | _ => none

def isFlag (o : CommandOption) : Bool := [models, verbose, quiet, help, version].contains o

end CommandOption

inductive CommandLevel
  | program
  | list
  | operations
  | generate
deriving DecidableEq

namespace CommandLevel

def options : CommandLevel → List CommandOption
  | program => [.color, .theme, .help, .version]
  | list => [.color, .theme, .help]
  | operations => [.input, .color, .theme, .help]
  | generate => [.input, .output, .models, .maxDepth, .host, .port, .only, .exclude, .verbose,
    .quiet, .color, .theme, .help]

def commands : CommandLevel → List (String × CommandLevel)
  | program => [("list", list), ("generate", generate)]
  | list => [("operations", operations)]
  | operations => []
  | generate => []

def long? (level : CommandLevel) (name : String) : Option CommandOption :=
  level.options.find? (·.long == name)

def short? (level : CommandLevel) (letter : Char) : Option CommandOption :=
  level.options.find? (·.short? == some letter)

end CommandLevel

def helpCommand : String := "help"

def helpAbout : CommandLevel → List String → UsageError
  | _, [] => .helpRequested
  | level, name :: names =>
    match level.commands.lookup name with
    | some inner => helpAbout inner names
    | none =>
      if name == helpCommand && !level.commands.isEmpty && names.isEmpty then .helpRequested
      else .unknownCommand

structure GivenOptions where
  color : Option ColorMode
  theme : Option ThemeMode
  input : Option String
  output : Option String
  models : Bool
  maxDepth : Option Nat
  host : Option String
  port : Option Nat
  only : Option (List String)
  exclude : Option (List String)
  verbose : Bool
  quiet : Bool
deriving DecidableEq

def GivenOptions.none : GivenOptions where
  color := .none
  theme := .none
  input := .none
  output := .none
  models := false
  maxDepth := .none
  host := .none
  port := .none
  only := .none
  exclude := .none
  verbose := false
  quiet := false

def natural? (text : String) : Option Nat :=
  let digits := match text.toList with
    | '+' :: cs => cs
    | cs => cs
  if digits.isEmpty || !digits.all Char.isDigit then none
  else some (digits.foldl (fun n d => n * 10 + (d.toNat - '0'.toNat)) 0)

def boundedNatural (limit : Nat) (text : String) : Except UsageError Nat :=
  match (natural? text).filter (· ≤ limit) with
  | some n => .ok n
  | none => .error .invalidNumber

def maxDepthLimit : Nat := Nat.pow 2 64 - 1

def maxPort : Nat := 65535

/-- The number of a port that a text spells; a zero may have a minus sign. -/
def portNumber (text : String) : Except UsageError Nat :=
  match text.toList with
  | '-' :: cs =>
    if !cs.isEmpty && cs.all (· == '0') then .ok 0 else .error .invalidNumber
  | _ => boundedNatural maxPort text

def nonEmptyValue (text : String) : Except UsageError String :=
  if text.isEmpty then .error .invalidValue else .ok text

def possibleValue {α : Type} : Option α → Except UsageError α
  | some value => .ok value
  | none => .error .invalidValue

def once {α : Type} (previous : Option α) (value : Except UsageError α) :
    Except UsageError (Option α) :=
  if previous.isSome then .error .repeatedOption else value.map some

def setOnce (previous : Bool) : Except UsageError Bool :=
  if previous then .error .repeatedOption else .ok true

def moreValues (previous : Option (List String)) (text : String) : Option (List String) :=
  some (previous.getD [] ++ Text.split ',' text)

namespace GivenOptions

/-- Options with a value for one more. A value that is missing is refused first, then a repeated
option, then a value that does not suit. -/
def accept (g : GivenOptions) (option : CommandOption) (value : Option String) :
    Except UsageError GivenOptions := do
  let text := value.getD ""
  if !option.isFlag && value.isNone then throw .invalidValue
  match option with
  | .color => return { g with color := ← once g.color (possibleValue (ColorMode.ofName? text)) }
  | .theme => return { g with theme := ← once g.theme (possibleValue (ThemeMode.ofName? text)) }
  | .input => return { g with input := ← once g.input (nonEmptyValue text) }
  | .output => return { g with output := ← once g.output (nonEmptyValue text) }
  | .models => return { g with models := ← setOnce g.models }
  | .maxDepth => return { g with maxDepth := ← once g.maxDepth (boundedNatural maxDepthLimit text) }
  | .host => return { g with host := ← once g.host (.ok text) }
  | .port => return { g with port := ← once g.port (portNumber text) }
  | .only => return { g with only := moreValues g.only text }
  | .exclude => return { g with exclude := moreValues g.exclude text }
  | .verbose => return { g with verbose := ← setOnce g.verbose }
  | .quiet => return { g with quiet := ← setOnce g.quiet }
  | .help => throw .helpRequested
  | .version => throw .versionRequested

def require {α : Type} : Option α → Except UsageError α
  | some value => .ok value
  | .none => .error .missingOption

def command (g : GivenOptions) : CommandLevel → Except UsageError Command
  | .operations => return .listOperations (← require g.input)
  | .generate => return .generate {
      input := ← require g.input
      output := ← require g.output
      models := g.models
      maxDepth := g.maxDepth.getD Synthesis.defaultMaxDepth
      host := g.host.getD DocumentOptions.default.host
      port := g.port.getD DocumentOptions.default.port
      only := g.only
      exclude := g.exclude
      verbose := g.verbose
      quiet := g.quiet }
  | _ => throw (if g = .none then .noArguments else .missingCommand)

/-- Options for a level inside another: choices for colors hold there too, unless it makes its
own. -/
def inherit (outer inner : GivenOptions) : GivenOptions :=
  { inner with color := inner.color <|> outer.color, theme := inner.theme <|> outer.theme }

end GivenOptions

inductive PendingOption
  | none
  /-- The value is expected next. -/
  | awaiting (option : CommandOption)
  | given (option : CommandOption) (value : String)
deriving DecidableEq

/-- The state of a level: options taken in, and the one that is pending. -/
structure ArgumentState where
  options : GivenOptions
  pending : PendingOption

namespace ArgumentState

def start : ArgumentState := ⟨.none, .none⟩

def settle (s : ArgumentState) : Except UsageError GivenOptions :=
  match s.pending with
  | .none => .ok s.options
  | .awaiting option => s.options.accept option .none
  | .given option value => s.options.accept option (some value)

def take (s : ArgumentState) (option : CommandOption) (value : Option String) :
    Except UsageError ArgumentState := do
  return ⟨← (← s.settle).accept option value, .none⟩

/-- An option as it is met, with the value attached to it. One without waits for the next
argument. -/
def meet (s : ArgumentState) (option : CommandOption) (attached : Option String) :
    Except UsageError ArgumentState := do
  if option.isFlag || attached.isSome then s.take option attached
  else return ⟨← s.settle, .awaiting option⟩

end ArgumentState

def readLong (level : CommandLevel) (s : ArgumentState) (text : List Char) :
    Except UsageError ArgumentState :=
  let (name, rest) := text.span (· != '=')
  match level.long? (String.ofList name) with
  | none => throw .unknownArgument
  | some option =>
    if rest.isEmpty then s.meet option none
    else if option.isFlag then throw .unexpectedValue
    else s.meet option (some (String.ofList (rest.drop 1)))

/-- Letters after one dash. The text after the letter of an option with a value is that value,
without an equals sign in front. -/
def readShort (level : CommandLevel) (s : ArgumentState) : List Char →
    Except UsageError ArgumentState
  | [] => .ok s
  | letter :: rest =>
    match level.short? letter with
    | none => throw .unknownArgument
    | some option =>
      if option.isFlag then do readShort level (← s.meet option none) rest
      else match rest with
        | [] => s.meet option none
        | '=' :: value => s.meet option (some (String.ofList value))
        | value => s.meet option (some (String.ofList value))

/-- The refusal of an argument that is no option and no value. After two dashes even the name of a
command is none. -/
def strayArgument (level : CommandLevel) (literal : Bool) (name : String) : UsageError :=
  let known := (level.commands.lookup name).isSome || name == helpCommand
  if level.commands.isEmpty || (literal && known) then .unknownArgument else .unknownCommand

/-- The command and the options that the arguments of a level make up. What is wrong in an inner
level is told before a pending option of the outer one. After two dashes all arguments are
`literal`. -/
def readLevel (level : CommandLevel) (s : ArgumentState) (literal : Bool) :
    List String → Except UsageError (Command × GivenOptions)
  | [] => do
    let options ← s.settle
    return (← options.command level, options)
  | arg :: args =>
    let awaited? := match s.pending with
      | .awaiting option => some option
      | _ => none
    if literal then throw (strayArgument level true arg)
    else match if awaited?.isSome then none else level.commands.lookup arg with
    | some inner => do
      let (command, given) ← readLevel inner .start false args
      return (command, (← s.settle).inherit given)
    | none =>
      if awaited?.isNone && arg == helpCommand && !level.commands.isEmpty then
        throw (helpAbout level args)
      else match arg.toList, awaited? with
        | ['-', '-'], _ => readLevel level s true args
        | '-' :: '-' :: text, _ => do readLevel level (← readLong level s text) false args
        | '-' :: c :: text, _ => do readLevel level (← readShort level s (c :: text)) false args
        | _, some option => readLevel level ⟨s.options, .given option arg⟩ false args
        | _, none => throw (strayArgument level false arg)

def readArguments (args : List String) : Except UsageError Invocation := do
  let (command, options) ← readLevel .program .start false args
  return ⟨command, options.color.getD .auto, options.theme.getD .auto⟩

end RequestDocs
