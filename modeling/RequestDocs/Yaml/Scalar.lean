import RequestDocs.Json.Basic
/-!
# Plain scalars

The values that plain scalars stand for: null, booleans, integers, floats, or else text.
-/

namespace RequestDocs.Yaml

def isNullText (text : String) : Bool := ["null", "Null", "NULL", "~"].contains text

def bool? (text : String) : Option Bool :=
  if ["true", "True", "TRUE"].contains text then some true
  else if ["false", "False", "FALSE"].contains text then some false
  else none

def digit? (base : Nat) (c : Char) : Option Nat :=
  let value :=
    if '0' ≤ c && c ≤ '9' then c.toNat - '0'.toNat
    else if 'a' ≤ c && c ≤ 'f' then c.toNat - 'a'.toNat + 10
    else if 'A' ≤ c && c ≤ 'F' then c.toNat - 'A'.toNat + 10
    else base
  if value < base then some value else none

def digits? (base : Nat) (cs : List Char) : Option Nat :=
  if cs.isEmpty then none
  else cs.foldlM (fun value c => (digit? base c).map (value * base + ·)) 0

def isPadded : List Char → Bool
  | '0' :: c :: cs => (c :: cs).all Char.isDigit
  | _ => false

/-- The value of an integer without sign: hexadecimal, octal, binary or decimal. -/
def magnitude? : List Char → Option Nat
  | '0' :: 'x' :: cs => digits? 16 cs
  | '0' :: 'o' :: cs => digits? 8 cs
  | '0' :: 'b' :: cs => digits? 2 cs
  | cs => if isPadded cs then none else digits? 10 cs

def int? (text : String) : Option Int :=
  match text.toList with
  | '-' :: cs => (magnitude? cs).map fun m => -(m : Int)
  | '+' :: cs => (magnitude? cs).map Int.ofNat
  | cs => (magnitude? cs).map Int.ofNat

private def exponent? : List Char → Option Int
  | '-' :: cs => (digits? 10 cs).map fun m => -(m : Int)
  | '+' :: cs => (digits? 10 cs).map Int.ofNat
  | cs => (digits? 10 cs).map Int.ofNat

/-- The double that a decimal without sign spells. A digit is needed before or after the point. -/
def decimal? (negative : Bool) (cs : List Char) : Option Double := do
  let (mantissa, rest) := cs.span fun c => c != 'e' && c != 'E'
  let exponent ← if rest.isEmpty then some 0 else exponent? (rest.drop 1)
  let (whole, rest) := mantissa.span (· != '.')
  let decimals := rest.drop 1
  let m ← digits? 10 (whole ++ decimals)
  Double.nearest? negative m (exponent - decimals.length)

def float? (text : String) : Option Json :=
  let special := [".inf", ".Inf", ".INF"]
  if (special ++ special.map ("+" ++ ·) ++ special.map ("-" ++ ·) ++
      [".nan", ".NaN", ".NAN"]).contains text then some .null
  else
    let double (negative : Bool) (cs : List Char) : Option Json :=
      if isPadded cs then none else (decimal? negative cs).map fun x => .number (.double x)
    match text.toList with
    | '-' :: cs => double true cs
    | '+' :: cs => double false cs
    | cs => double false cs

def int64? (n : Int) : Option Json :=
  if -(Nat.pow 2 63 : Int) ≤ n && n < Nat.pow 2 64 then some (.number (.integer n)) else none

private def fits128 (n : Int) : Bool := -(Nat.pow 2 127 : Int) ≤ n && n < Nat.pow 2 128

/-- The value of an untagged plain scalar. An integer of more than 64 and at most 128 bits has no
value; beyond that it counts as a float. -/
def plainValue? (text : String) : Option Json :=
  if text.isEmpty || isNullText text then some .null
  else match bool? text with
    | some b => some (.bool b)
    | none =>
      match (int? text).filter fits128 with
      | some n => int64? n
      | none => some ((float? text).getD (.string text))

end RequestDocs.Yaml
