import RequestDocs.Yaml.BlockScalar
import RequestDocs.Yaml.Plain
import RequestDocs.Yaml.Properties
import RequestDocs.Yaml.Quoted
/-!
# Reading nodes

Block collections are told apart by the columns of their entries, flow collections by brackets. A
key stands on one line with the colon after it.
-/

namespace RequestDocs.Yaml

def maxKeyLength : Nat := 1024

def isKeySpan (start stop : Cursor) : Bool :=
  stop.line == start.line && stop.column ≤ start.column + maxKeyLength

/-- A scalar without brackets or properties, in a collection at a column before `indent`. -/
def readScalar (bracketed : Bool) (indent : Int) : Reading Yaml := do
  let c ← cursor
  match c.rest with
  | '"' :: cs => .scalar false <$> readText fun c => readDouble .none c.line (c.column + 1) cs
  | '\'' :: cs => .scalar false <$> readText fun c => readSingle .none c.line (c.column + 1) cs
  | cs =>
    if startsPlain bracketed cs then
      .scalar true <$> readText fun c => readPlain bracketed indent .none c c.line c.column cs
    else malformed

mutual

/-- A node without properties other than block collections and block scalars. -/
def readFlowNode (bracketed : Bool) (indent : Int) : (fuel : Nat) → Reading Yaml
  | 0 => malformed
  | fuel + 1 => do
    let c ← cursor
    match c.rest with
    | '*' :: _ =>
      moveTo (c.advance 1)
      readAlias
    | '[' :: _ =>
      moveTo (c.advance 1)
      .list <$> readFlowItems indent fuel
    | '{' :: _ =>
      moveTo (c.advance 1)
      .map <$> readFlowEntries indent fuel
    | _ => readScalar bracketed indent

def readFlowItem (indent : Int) : (fuel : Nat) → Reading Yaml
  | 0 => malformed
  | fuel + 1 => do
    let properties ← readProperties true .none 2
    let c ← cursor
    match c.rest with
    | '*' :: _ => if properties.isNone then readFlowNode true indent fuel else malformed
    | cs =>
      if !properties.isNone && cs.head?.any (fun d => isBracketSign d && d != '[' && d != '{') then
        withProperties properties .empty
      else withProperties properties (← readFlowNode true indent fuel)

def readFlowValue (indent : Int) : (fuel : Nat) → Reading Yaml
  | 0 => malformed
  | fuel + 1 => do
    moveTo (← cursor).skipBracketed
    match (← cursor).rest with
    | ',' :: _ => return .empty
    | ']' :: _ => return .empty
    | '}' :: _ => return .empty
    | _ => readFlowItem indent fuel

/-- A node inside brackets, and the value after it if it is a key. A question mark announces a
key. -/
def readFlowPair (indent : Int) : (fuel : Nat) → Reading (Yaml × Option Yaml)
  | 0 => malformed
  | fuel + 1 => do
    let start ← cursor
    let explicit := hasIndicator '?' start.rest
    let key ←
      if explicit then
        moveTo ((start.advance 1).skipBracketed)
        match (← cursor).rest with
        | ':' :: _ => pure .empty
        | _ => readFlowValue indent fuel
      else readFlowItem indent fuel
    let c := (← cursor).skipBracketed
    moveTo c
    if c.rest.head? == some ':' && (explicit || isKeySpan start c) then
      moveTo (c.advance 1)
      return (key, some (← readFlowValue indent fuel))
    else return (key, if explicit then some .empty else none)

def readFlowItems (indent : Int) : (fuel : Nat) → Reading (List Yaml)
  | 0 => malformed
  | fuel + 1 => do
    moveTo (← cursor).skipBracketed
    let c ← cursor
    match c.rest with
    | ']' :: _ =>
      moveTo (c.advance 1)
      return []
    | _ =>
      let (key, value) ← readFlowPair indent fuel
      let item := match value with
        | some value => .map [(key, value)]
        | none => key
      let c := (← cursor).skipBracketed
      match c.rest with
      | ',' :: _ =>
        moveTo (c.advance 1)
        return item :: (← readFlowItems indent fuel)
      | ']' :: _ =>
        moveTo (c.advance 1)
        return [item]
      | _ => malformed

def readFlowEntries (indent : Int) : (fuel : Nat) → Reading (List (Yaml × Yaml))
  | 0 => malformed
  | fuel + 1 => do
    moveTo (← cursor).skipBracketed
    let c ← cursor
    match c.rest with
    | '}' :: _ =>
      moveTo (c.advance 1)
      return []
    | _ =>
      let (key, value) ← readFlowPair indent fuel
      let entry := (key, value.getD .empty)
      let c := (← cursor).skipBracketed
      match c.rest with
      | ',' :: _ =>
        moveTo (c.advance 1)
        return entry :: (← readFlowEntries indent fuel)
      | '}' :: _ =>
        moveTo (c.advance 1)
        return [entry]
      | _ => malformed

end

mutual

/-- The node after an indicator or properties of a collection at column `parent`, or nothing. It
stands on the same line, where it may hold keys if `keys` says so, or on a further line at a greater
column. A list may also start at the column `parent` itself if `flush` says so. -/
def readNested (parent : Int) (flush keys : Bool) : (fuel : Nat) → Reading Yaml
  | 0 => malformed
  | fuel + 1 => do
    let start ← cursor
    let c := start.skip (!keys)
    moveTo c
    if c.rest.isEmpty then return .empty
    else if c.line == start.line then readNode parent flush keys fuel
    else if parent < c.column then readNode parent flush true fuel
    else if flush && c.column == parent && hasIndicator '-' c.rest then
      .list <$> readItems c.column true fuel
    else return .empty

def readNode (parent : Int) (flush keys : Bool) : (fuel : Nat) → Reading Yaml
  | 0 => malformed
  | fuel + 1 => do
    let start ← cursor
    if hasIndicator '-' start.rest then
      if keys then .list <$> readItems start.column false fuel else malformed
    else if hasIndicator '?' start.rest then
      if keys then .map <$> readEntries start.column fuel else malformed
    else
      let properties ← readProperties false .none 2
      let c ← cursor
      match c.rest with
      | '|' :: _ =>
        moveTo (c.advance 1)
        withProperties properties (.scalar false (← readText (readBlockScalar false parent)))
      | '>' :: _ =>
        moveTo (c.advance 1)
        withProperties properties (.scalar false (← readText (readBlockScalar true parent)))
      | cs =>
        if !properties.isNone && (cs.isEmpty || cs.head?.any (fun d => d == '\n' || d == '#')) then
          withProperties properties (← readNested parent flush keys fuel)
        else if !properties.isNone && cs.head? == some '*' then malformed
        else
          let node ← withProperties properties (← readFlowNode false (parent + 1) fuel)
          let c := (← cursor).skipSpaces
          if keys && hasIndicator ':' c.rest && isKeySpan start c then
            moveTo (c.advance 1)
            let value ← readNested start.column true false fuel
            .map <$> (((node, value) :: ·) <$> readMoreEntries start.column fuel)
          else return node

/-- The items of a block list at a column. A list at the column of the map around it ends where a
key stands. -/
def readItems (column : Nat) (flush : Bool) : (fuel : Nat) → Reading (List Yaml)
  | 0 => malformed
  | fuel + 1 => do
    moveTo ((← cursor).advance 1)
    let item ← readNested column false true fuel
    let c := (← cursor).skip true
    moveTo c
    if c.rest.isEmpty || c.column < column then return [item]
    else if c.column == column && hasIndicator '-' c.rest then
      return item :: (← readItems column flush fuel)
    else if c.column == column && flush then return [item]
    else malformed

def readMoreEntries (column : Nat) : (fuel : Nat) → Reading (List (Yaml × Yaml))
  | 0 => malformed
  | fuel + 1 => do
    let c := (← cursor).skip true
    moveTo c
    if c.rest.isEmpty || c.column < column then return []
    else if c.column == column then readEntries column fuel
    else malformed

/-- The entries of a block map from a key at its column. A question mark announces a key that may be
any node. -/
def readEntries (column : Nat) : (fuel : Nat) → Reading (List (Yaml × Yaml))
  | 0 => malformed
  | fuel + 1 => do
    let start ← cursor
    if hasIndicator '?' start.rest then
      moveTo (start.advance 1)
      let key ← readNested column true true fuel
      let c := (← cursor).skip true
      if c.column == column && hasIndicator ':' c.rest then
        moveTo (c.advance 1)
        let value ← readNested column true true fuel
        return (key, value) :: (← readMoreEntries column fuel)
      else return (key, .empty) :: (← readMoreEntries column fuel)
    else
      let properties ← readProperties false .none 2
      if !properties.isNone && (← cursor).rest.head? == some '*' then malformed
      else
        let key ← withProperties properties (← readFlowNode false (column + 1) fuel)
        let c := (← cursor).skipSpaces
        if hasIndicator ':' c.rest && isKeySpan start c then
          moveTo (c.advance 1)
          let value ← readNested column true false fuel
          return (key, value) :: (← readMoreEntries column fuel)
        else malformed

end

end RequestDocs.Yaml
