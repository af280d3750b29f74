import RequestDocs.Yaml.Reader
/-!
# Reading documents

A text with exactly one document, with or without its markers and directives.
-/

namespace RequestDocs.Yaml

def maxDepth : Nat := 128

def byteOrderMark : Char := '\ufeff'

def isAllowed (c : Char) : Bool :=
  let n := c.toNat
  n == 0x09 || n == 0x0A || n == 0x0D || (0x20 ≤ n && n ≤ 0x7E) || n == 0x85 ||
    (0xA0 ≤ n && n ≤ 0xD7FF) || (0xE000 ≤ n && n ≤ 0xFFFD && c != byteOrderMark) || 0x10000 ≤ n

def unifyLines : List Char → List Char
  | [] => []
  | '\r' :: '\n' :: cs => '\n' :: unifyLines cs
  | '\r' :: cs => '\n' :: unifyLines cs
  | '\u0085' :: cs => '\n' :: unifyLines cs
  | c :: cs => c :: unifyLines cs

/-- Whether a line is the given document marker, alone or with a blank after it. -/
def isMarker (marker : String) (cs : List Char) : Bool :=
  marker.toList.isPrefixOf cs && endsWord (cs.drop marker.toList.length)

def startMarker : String := "---"

def endMarker : String := "..."

def splitAtMarker (atLineStart : Bool) : List Char → List Char × List Char
  | [] => ([], [])
  | c :: cs =>
    if atLineStart && (isMarker startMarker (c :: cs) || isMarker endMarker (c :: cs)) then
      ([], c :: cs)
    else
      let (body, rest) := splitAtMarker (c == '\n') cs
      (c :: body, rest)

def linesOf (cs : List Char) : List (List Char) :=
  match cs with
  | [] => []
  | c :: cs =>
    match c, linesOf cs with
    | '\n', lines => [] :: lines
    | c, [] => [[c]]
    | c, line :: lines => (c :: line) :: lines

def isBlankLine (line : List Char) : Bool :=
  match line.dropWhile (· == ' ') with
  | [] => true
  | c :: _ => c == '#'

/-- Whether a line is a directive for the language version; other directives are not known. -/
def isVersionLine (line : List Char) : Bool :=
  let words := (String.ofList (line.takeWhile (· != '#'))).toList.splitOnP isSpace |>.filter (· != [])
  words.length == 2 && words.head? == some "%YAML".toList &&
    [some "1.1".toList, some "1.2".toList].contains words[1]?

/-- The text of the first document and the column at which it starts. A directive needs the marker
after it. -/
def findStart (directive : Bool) : (fuel : Nat) → List Char → Option (Nat × List Char)
  | 0, _ => none
  | fuel + 1, cs =>
    let line := cs.takeWhile (· != '\n')
    if isMarker startMarker cs then some (3, cs.drop 3)
    else if cs.head? == some '%' then
      if !directive && isVersionLine line then findStart true fuel (cs.drop (line.length + 1))
      else none
    else if !cs.isEmpty && isBlankLine line then
      findStart directive fuel (cs.drop (line.length + 1))
    else if directive then none
    else some (0, cs)

/-- Whether nothing follows a document but comments and further end markers. -/
def endsStream (rest : List Char) : Bool :=
  (linesOf rest).all fun line =>
    isBlankLine line || (isMarker endMarker line && isBlankLine (line.drop 3))

def readRoot (keys : Bool) (fuel : Nat) : Reading Yaml := do
  let node ← readNested (-1) false keys fuel
  if ((← cursor).skip true).rest.isEmpty then return node else malformed

def read? (text : String) : Option Yaml := do
  let cs := text.toList
  let cs := if cs.head? == some byteOrderMark then cs.drop 1 else cs
  if !cs.all isAllowed then none
  else
    let cs := unifyLines cs
    let (column, start) ← findStart false (cs.length + 1) cs
    let (body, rest) := splitAtMarker (column == 0) start
    if !endsStream rest then none
    else
      let (node, _) ← readRoot (column == 0) (8 * cs.length + 8) ⟨⟨body, 0, column⟩, []⟩
      if node.depth ≤ maxDepth then some node else none

end RequestDocs.Yaml
