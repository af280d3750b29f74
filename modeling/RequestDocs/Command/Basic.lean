import RequestDocs.Generation.Basic
import RequestDocs.KeyOrder
import RequestDocs.FilePath
import RequestDocs.Terminal.Palette
import RequestDocs.Text.Blank
/-!
# Commands

What can be asked for on the command line, and the settings of a generation that follow from it.
-/

namespace RequestDocs

inductive ColorMode
  | always
  | auto
  | never
deriving DecidableEq

namespace ColorMode

def name : ColorMode → String
  | always => "always"
  | auto => "auto"
  | never => "never"

def ofName? (name : String) : Option ColorMode := [always, auto, never].find? (·.name == name)

def isEnabled (terminal : Bool) : ColorMode → Bool
  | always => true
  | auto => terminal
  | never => false

end ColorMode

inductive ThemeMode
  | dark
  | light
  | auto
deriving DecidableEq

namespace ThemeMode

def name : ThemeMode → String
  | dark => "dark"
  | light => "light"
  | auto => "auto"

def ofName? (name : String) : Option ThemeMode := [dark, light, auto].find? (·.name == name)

/-- The theme of a mode. Without a choice the terminal's description of its colors tells it, and a
background that is not known counts as dark. -/
def theme (colors? : Option String) : ThemeMode → Theme
  | dark => .dark
  | light => .light
  | auto => (colors?.bind Theme.ofColors?).getD .dark

end ThemeMode

structure GenerateCommand where
  input : String
  output : String
  models : Bool
  maxDepth : Nat
  host : String
  port : Nat
  only : Option (List String)
  exclude : Option (List String)
  verbose : Bool
  quiet : Bool
deriving DecidableEq

inductive Command
  | listOperations (input : String)
  | generate (command : GenerateCommand)
deriving DecidableEq

/-- A command with the choices that hold for every command. -/
structure Invocation where
  command : Command
  color : ColorMode
  theme : ThemeMode
deriving DecidableEq

def Invocation.palette (i : Invocation) (terminal : Bool) (colors? : Option String) : Palette :=
  ⟨i.color.isEnabled terminal, i.theme.theme colors?⟩

inductive SettingsError
  | verboseAndQuiet
  | noDepth
  | blankHost
deriving DecidableEq

def SettingsError.message : SettingsError → String
  | verboseAndQuiet => "--verbose and --quiet cannot be used together"
  | noDepth => "--max-depth must be at least 1"
  | blankHost => "--host must not be empty"

structure GenerateSettings where
  input : String
  output : String
  options : GenerateOptions
  verbose : Bool
  quiet : Bool
deriving DecidableEq

/-- The settings that a command asks for. Models name the input by its file name. -/
def GenerateCommand.settings (c : GenerateCommand) : Except SettingsError GenerateSettings :=
  if c.verbose && c.quiet then throw .verboseAndQuiet
  else if c.maxDepth = 0 then throw .noDepth
  else if Text.allBlank c.host then throw .blankHost
  else return {
    input := c.input
    output := c.output
    options := {
      assembly := ⟨⟨c.host, c.port⟩, c.maxDepth⟩
      emitModels := c.models
      only := c.only.map sortTexts
      exclude := c.exclude.map sortTexts
      sourceLabel := (FilePath.fileName? c.input).getD "" }
    verbose := c.verbose
    quiet := c.quiet }

end RequestDocs
