import RequestDocs.Yaml.Cursor
/-!
# Block scalars

Literal and folded text of whole lines below an indicator. The lines share an indentation that is
not part of the text.
-/

namespace RequestDocs.Yaml

/-- What stays of the line ends after the last line. -/
inductive Chomping
  | strip
  | clip
  | keep
deriving DecidableEq

def chomping? : Char → Option Chomping
  | '-' => some .strip
  | '+' => some .keep
  | _ => none

def indentation? (c : Char) : Option Nat :=
  if '1' ≤ c && c ≤ '9' then some (c.toNat - '0'.toNat) else none

/-- The indicators of a header in either order, and the number of characters they take. -/
def blockHeader : List Char → Chomping × Option Nat × Nat
  | a :: b :: _ =>
    match chomping? a, indentation? a, chomping? b, indentation? b with
    | some chomping, _, _, some n => (chomping, some n, 2)
    | some chomping, _, _, none => (chomping, none, 1)
    | none, some n, some chomping, _ => (chomping, some n, 2)
    | none, some n, none, _ => (.clip, some n, 1)
    | none, none, _, _ => (.clip, none, 0)
  | [a] =>
    match chomping? a, indentation? a with
    | some chomping, _ => (chomping, none, 1)
    | none, some n => (.clip, some n, 1)
    | none, none => (.clip, none, 0)
  | [] => (.clip, none, 0)

/-- The empty lines before a line of text: how many there are, the widest indentation seen, and the
position after the indentation of the line of text. -/
structure BlankLines where
  count : Nat
  widest : Nat
  cursor : Cursor

def blankLines (limit : Option Nat) (count widest line column : Nat) :
    List Char → Option BlankLines
  | [] => some ⟨count, widest, ⟨[], line, column⟩⟩
  | c :: cs =>
    let inIndentation := limit.all (column < ·)
    if c == '\n' then blankLines limit (count + 1) widest (line + 1) 0 cs
    else if c == ' ' && inIndentation then
      blankLines limit count (max widest (column + 1)) line (column + 1) cs
    else if c == '\t' && inIndentation then none
    else some ⟨count, widest, ⟨c :: cs, line, column⟩⟩

def lineEnd (c : Cursor) : Bool × Cursor :=
  match c.rest with
  | '\n' :: cs => (true, ⟨cs, c.line + 1, 0⟩)
  | _ => (false, c)

def newlines (n : Nat) : List Char := List.replicate n '\n'

/-- The lines of a block scalar from a position after the indentation of a line. `ended` tells
whether the line before ended, `count` how many empty lines came between, and `indented` whether
the line before started with a blank: folding turns a single line end between two lines that do not
start with blanks into a space. -/
def blockLines (folded : Bool) (chomping : Chomping) (indent : Nat) (ended : Bool) (count : Nat)
    (indented : Bool) (c : Cursor) : (fuel : Nat) → Option (List Char × Cursor)
  | 0 => none
  | fuel + 1 =>
    let lineBreak := if ended then ['\n'] else []
    if c.column == indent && !c.rest.isEmpty then do
      let startsBlank := c.rest.head?.any isSpace
      let joint :=
        if folded && ended && !indented && !startsBlank then
          if count == 0 then [' '] else newlines count
        else lineBreak ++ newlines count
      let (text, c) := c.span (· != '\n')
      let (ended, c) := lineEnd c
      let blank ← blankLines (some indent) 0 0 c.line c.column c.rest
      let (rest, c) ←
        blockLines folded chomping indent ended blank.count startsBlank blank.cursor fuel
      return (joint ++ text ++ rest, c)
    else
      let tail := match chomping with
        | .strip => []
        | .clip => lineBreak
        | .keep => lineBreak ++ newlines count
      some (tail, c)

/-- The block scalar whose indicator stands before the position, inside a collection at column
`parent`. Without an indentation indicator the first line of text sets the indentation. -/
def readBlockScalar (folded : Bool) (parent : Int) (c : Cursor) :
    Option (List Char × Cursor) := do
  let (chomping, increment, used) := blockHeader c.rest
  let c := (c.advance used).skipSpaces
  let (_, c) := if c.rest.head? == some '#' then c.span (· != '\n') else ([], c)
  if !c.rest.isEmpty && c.rest.head? != some '\n' then none
  else
    let (_, c) := lineEnd c
    let least := (max (parent + 1) 1).toNat
    let limit := increment.map fun n => parent.toNat + n
    let blank ← blankLines limit 0 0 c.line c.column c.rest
    let indent := limit.getD (max blank.widest least)
    blockLines folded chomping indent false blank.count false blank.cursor (c.rest.length + 1)

end RequestDocs.Yaml
