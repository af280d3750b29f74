/-!
# Terminal colors

Foreground colors and the escape sequences that switch to them.
-/

namespace RequestDocs

inductive Color
  /-- The color of the terminal itself. -/
  | reset
  /-- One of the sixteen basic colors, the dark ones first. -/
  | basic (index : Fin 16)
  | indexed (index : UInt8)
  | rgb (red green blue : UInt8)
deriving DecidableEq

namespace Color

def basicNames : List String :=
  ["Black", "DarkRed", "DarkGreen", "DarkYellow", "DarkBlue", "DarkMagenta", "DarkCyan", "Grey",
    "DarkGrey", "Red", "Green", "Yellow", "Blue", "Magenta", "Cyan", "White"]

def ofName? (name : String) : Option Color :=
  if name = "Reset" then some reset
  else if h : basicNames.idxOf name < 16 then some (basic ⟨basicNames.idxOf name, h⟩) else none

def name? : Color → Option String
  | reset => some "Reset"
  | basic index => basicNames[index.val]?
  | _ => none

private def escape (parameters : String) : String := "\x1b[" ++ parameters ++ "m"

def sequence : Color → String
  | reset => escape "39"
  | basic index => escape ("38;5;" ++ toString index.val)
  | indexed index => escape ("38;5;" ++ toString index.toNat)
  | rgb red green blue =>
    escape ("38;2;" ++ toString red.toNat ++ ";" ++ toString green.toNat ++ ";" ++
      toString blue.toNat)

def paint (color : Color) (text : String) : String := color.sequence ++ text ++ reset.sequence

end Color

end RequestDocs
