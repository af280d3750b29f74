import RequestDocs.Yaml.Basic
import RequestDocs.Yaml.Cursor
/-!
# Reading state

The state in which nodes are read: the position, and the anchored nodes that aliases may name.
Tags and anchors are read here.
-/

namespace RequestDocs.Yaml

/-- A position and the nodes with anchors, the latest first. -/
structure ReadingState where
  cursor : Cursor
  anchors : List (List Char × Yaml)

abbrev Reading := StateT ReadingState Option

def malformed {α : Type} : Reading α := fun _ => none

def cursor : Reading Cursor := do return (← get).cursor

def moveTo (c : Cursor) : Reading Unit := modify fun s => { s with cursor := c }

def readText (read : Cursor → Option (List Char × Cursor)) : Reading String := do
  match read (← cursor) with
  | some (text, c) =>
    moveTo c
    return String.ofList text
  | none => malformed

structure Properties where
  tag : Option String
  anchor : Option (List Char)

namespace Properties

def none : Properties := ⟨.none, .none⟩

def isNone (p : Properties) : Bool := p.tag.isNone && p.anchor.isNone

end Properties

def isAnchorChar (c : Char) : Bool := c.isAlphanum || c == '_' || c == '-'

def readAnchorName : Reading (List Char) := do
  let (name, c) := (← cursor).span isAnchorChar
  moveTo c
  if name.isEmpty then malformed
  else if endsWord c.rest || c.rest.head?.any ("?:,]\x7d%@\x60".toList.contains ·) then return name
  else malformed

private def isTagChar (c : Char) : Bool :=
  c.isAlphanum || "-;/?:@&=+$._!~*'()%".toList.contains c

def readTag : Reading String := do
  let c ← cursor
  match c.rest with
  | '<' :: _ =>
    let (name, c) := (c.advance 1).span fun d => isTagChar d || d == ',' || d == '[' || d == ']'
    if c.rest.head? == some '>' && !name.isEmpty then
      moveTo (c.advance 1)
      return String.ofList name
    else malformed
  | '!' :: _ =>
    let (name, c) := (c.advance 1).span isTagChar
    moveTo c
    if name.isEmpty then malformed else return standardTag (String.ofList name)
  | _ =>
    let (name, c) := c.span isTagChar
    moveTo c
    return "!" ++ String.ofList name

/-- The properties in front of a node, each at most once, with the blanks after them. -/
def readProperties (bracketed : Bool) (p : Properties) : (fuel : Nat) → Reading Properties
  | 0 => return p
  | fuel + 1 => do
    let c ← cursor
    match c.rest with
    | '&' :: _ =>
      if p.anchor.isSome then malformed
      else
        moveTo (c.advance 1)
        let name ← readAnchorName
        modify fun s => { s with
          cursor := if bracketed then s.cursor.skipBracketed else s.cursor.skipSpaces }
        readProperties bracketed { p with anchor := some name } fuel
    | '!' :: _ =>
      if p.tag.isSome then malformed
      else
        moveTo (c.advance 1)
        let tag ← readTag
        let c ← cursor
        if !(endsWord c.rest || (bracketed && c.rest.head? == some ',')) then malformed
        else
          moveTo (if bracketed then c.skipBracketed else c.skipSpaces)
          readProperties bracketed { p with tag := some tag } fuel
    | _ => return p

def withProperties (p : Properties) (node : Yaml) : Reading Yaml := do
  let node := match p.tag with
    | some tag => .tagged tag node
    | none => node
  match p.anchor with
  | some name =>
    modify fun s => { s with anchors := (name, node) :: s.anchors }
    return node
  | none => return node

def readAlias : Reading Yaml := do
  let name ← readAnchorName
  match (← get).anchors.lookup name with
  | some node => return node
  | none => malformed

end RequestDocs.Yaml
