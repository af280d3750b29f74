import RequestDocs.Request.Operation
import RequestDocs.Terminal.Color
import RequestDocs.Text.Split
/-!
# Palettes

The colors of the messages for dark and light backgrounds.
-/

namespace RequestDocs

inductive Theme
  | dark
  | light
deriving DecidableEq

namespace Theme

def name : Theme → String
  | dark => "dark"
  | light => "light"

/-- The number up to 255 that a text spells, with or without a plus sign. -/
private def byte? (text : String) : Option Nat :=
  let digits := match text.toList with
    | '+' :: cs => cs
    | cs => cs
  if digits.isEmpty || !digits.all Char.isDigit then none
  else
    let n := digits.foldl (fun n d => n * 10 + (d.toNat - '0'.toNat)) 0
    if n ≤ 255 then some n else none

/-- The theme told by a description of foreground and background, whose last field is the number of
the background color; the colors from eight on are bright. -/
def ofColors? (description : String) : Option Theme := do
  let background ← byte? ((Text.split ';' description).getLastD "")
  return if 8 ≤ background then light else dark

end Theme

structure Palette where
  enabled : Bool
  theme : Theme
deriving DecidableEq

namespace Palette

def pick (p : Palette) (dark light : Color) : Color :=
  if p.enabled then
    match p.theme with
    | .dark => dark
    | .light => light
  else .reset

def timestamp (p : Palette) : Color := p.pick (.rgb 128 150 170) (.rgb 84 96 110)

def primary (p : Palette) : Color := p.pick (.rgb 140 190 220) (.rgb 30 72 110)

def accent (p : Palette) : Color := p.pick (.rgb 230 110 90) (.rgb 190 60 45)

def info (p : Palette) : Color := p.pick (.rgb 150 170 200) (.rgb 50 100 160)

def success (p : Palette) : Color := p.pick (.rgb 120 200 140) (.rgb 30 130 70)

def label (p : Palette) : Color := p.pick (.rgb 100 180 230) (.rgb 40 90 150)

def value (p : Palette) : Color := p.pick (.rgb 240 240 240) (.rgb 30 30 30)

def verb (p : Palette) (v : Verb) : Color :=
  match v.token with
  | "GET" => p.success
  | "POST" => p.pick (.rgb 240 200 90) (.rgb 170 120 10)
  | "PUT" => p.primary
  | "PATCH" => p.primary
  | "DELETE" => p.accent
  | _ => p.info

end Palette

end RequestDocs
