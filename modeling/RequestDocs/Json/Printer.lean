import RequestDocs.Json.Basic
import RequestDocs.Decimal.Layout
/-!
# JSON text

Compact printing: no blanks, members in their order, and escapes only where JSON demands them.
-/

namespace RequestDocs.Json

/-- Doubles have at least one decimal, and an exponent from `1e+16` up and below `1e-5`. -/
def doubleLayout : Decimal.Layout where
  pointAbove := -5
  pointUpTo := 16
  wholeSuffix := ".0"
  positiveMark := "e+"
  negativeMark := "e-"

def Number.print : Number → String
  | .integer value => toString value
  | .double value => value.write doubleLayout

private def hexDigit (n : Nat) : Char := (Nat.digitChar n)

def escapeChar (c : Char) : List Char :=
  if c == '"' then ['\\', '"']
  else if c == '\\' then ['\\', '\\']
  else if c == '\x08' then ['\\', 'b']
  else if c == '\t' then ['\\', 't']
  else if c == '\n' then ['\\', 'n']
  else if c == '\x0c' then ['\\', 'f']
  else if c == '\r' then ['\\', 'r']
  else if c.toNat < 0x20 then
    ['\\', 'u', '0', '0', hexDigit (c.toNat / 16), hexDigit (c.toNat % 16)]
  else [c]

def quote (s : String) : String := String.ofList ('"' :: s.toList.flatMap escapeChar ++ ['"'])

mutual

def print : Json → String
  | null => "null"
  | bool value => if value then "true" else "false"
  | number value => value.print
  | string text => quote text
  | array items => "[" ++ printItems items ++ "]"
  | object members => "\x7b" ++ printMembers members ++ "\x7d"

def printItems : List Json → String
  | [] => ""
  | [item] => print item
  | item :: items => print item ++ "," ++ printItems items

def printMembers : List (String × Json) → String
  | [] => ""
  | [(key, value)] => quote key ++ ":" ++ print value
  | (key, value) :: members => quote key ++ ":" ++ print value ++ "," ++ printMembers members

end

end RequestDocs.Json
