import RequestDocs.Yaml.Cursor
/-!
# Plain scalars in a text

Where a scalar without quotes starts and ends. It may go on over several lines, which are folded.
-/

namespace RequestDocs.Yaml

def isBracketSign (c : Char) : Bool := [',', '[', ']', '{', '}'].contains c

def startsPlain (bracketed : Bool) : List Char → Bool
  | [] => false
  | c :: cs =>
    !(isSpace c || c == '\n' || isBracketSign c || "-?:#&*!|>'\"%@\x60".toList.contains c) ||
      (c == '-' && !endsWord cs) ||
      (!bracketed && (c == '?' || c == ':') && !endsWord cs)

/-- The rest of a plain scalar and the position after its last visible character. Outside brackets
its further lines start at column `indent` or after; inside brackets a colon must not stand before a
bracket, a comma or a question mark. `last` is the position after the text read so far. -/
def readPlain (bracketed : Bool) (indent : Int) (gap : Gap) (last : Cursor) (line column : Nat) :
    List Char → Option (List Char × Cursor)
  | [] => some ([], last)
  | '\n' :: cs => readPlain bracketed indent gap.addBreak last (line + 1) 0 cs
  | c :: cs =>
    if isSpace c then
      if gap.isBreak && c == '\t' && column < indent then none
      else readPlain bracketed indent (gap.addSpace c) last line (column + 1) cs
    else if gap != .none && c == '#' then some ([], last)
    else if !bracketed && gap.isBreak && column < indent then some ([], last)
    else if bracketed && c == ':' && cs.head?.any (fun d => isBracketSign d || d == '?') then none
    else if (c == ':' && endsWord cs) || (bracketed && isBracketSign c) then some ([], last)
    else do
      let (text, after) ←
        readPlain bracketed indent .none ⟨cs, line, column + 1⟩ line (column + 1) cs
      return (gap.text ++ c :: text, after)

end RequestDocs.Yaml
