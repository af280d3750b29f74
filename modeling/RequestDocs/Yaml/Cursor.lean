/-!
# Positions in a YAML text

What is still to be read, with the line and the column at which it starts, and the steps over
blanks, line ends and comments.
-/

namespace RequestDocs.Yaml

/-- What follows a position, and its line and column. -/
structure Cursor where
  rest : List Char
  line : Nat
  column : Nat
deriving Inhabited

def isSpace (c : Char) : Bool := c == ' ' || c == '\t'

def endsWord : List Char → Bool
  | [] => true
  | c :: _ => isSpace c || c == '\n'

/-- Whether an indicator stands next, with a blank after it. -/
def hasIndicator (indicator : Char) : List Char → Bool
  | c :: cs => c == indicator && endsWord cs
  | [] => false

/-- The position after blanks, line ends and comments. Inside brackets tabs are blanks everywhere;
elsewhere they are not at the start of a line, and `tabs` tells whether they are before its end. -/
def skipFrom (bracketed tabs comment : Bool) (line column : Nat) : List Char → Cursor
  | [] => ⟨[], line, column⟩
  | c :: cs =>
    if c == '\n' then skipFrom bracketed bracketed false (line + 1) 0 cs
    else if comment || c == ' ' || (c == '\t' && tabs) then
      skipFrom bracketed tabs comment line (column + 1) cs
    else if c == '#' then skipFrom bracketed tabs true line (column + 1) cs
    else ⟨c :: cs, line, column⟩

namespace Cursor

def skip (c : Cursor) (tabs : Bool) : Cursor := skipFrom false tabs false c.line c.column c.rest

def skipBracketed (c : Cursor) : Cursor := skipFrom true true false c.line c.column c.rest

def advance (c : Cursor) (n : Nat) : Cursor := ⟨c.rest.drop n, c.line, c.column + n⟩

def skipSpaces (c : Cursor) : Cursor := c.advance (c.rest.takeWhile isSpace).length

def span (c : Cursor) (p : Char → Bool) : List Char × Cursor :=
  let text := c.rest.takeWhile p
  (text, c.advance text.length)

end Cursor

/-- The blanks and line ends between two visible characters of a folded scalar. -/
inductive Gap
  | none
  | spaces (run : List Char)
  | breaks (count : Nat)
  /-- The gap that starts with an escaped line end. -/
  | escaped (count : Nat)
deriving DecidableEq

namespace Gap

def addSpace (c : Char) : Gap → Gap
  | none => spaces [c]
  | spaces run => spaces (run ++ [c])
  | gap => gap

def addBreak : Gap → Gap
  | breaks count => breaks (count + 1)
  | escaped count => escaped (count + 1)
  | _ => breaks 1

/-- What a gap counts for: blanks for themselves; one line end as a space, and more line ends as one
less. Blanks around line ends are lost. -/
def text : Gap → List Char
  | none => []
  | spaces run => run
  | breaks count => if count ≤ 1 then [' '] else List.replicate (count - 1) '\n'
  | escaped count => List.replicate count '\n'

def isBreak : Gap → Bool
  | breaks _ => true
  | _ => false

end Gap

end RequestDocs.Yaml
