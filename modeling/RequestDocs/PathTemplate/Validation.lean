import RequestDocs.Text.Split
/-!
# Well-formed path templates

A segment of a path is well formed when its braces are balanced, not nested and not empty. The
first segment that is not decides the error.
-/

namespace RequestDocs

/-- What is wrong with a segment. Positions count bytes of UTF-8. -/
inductive TemplateError
  | unclosedBrace (segment : String) (position : Nat)
  | emptyParameter (segment : String)
  | unmatchedClosingBrace (segment : String) (position : Nat)
  | nestedBraces (segment : String) (position : Nat)
deriving DecidableEq

namespace TemplateError

def segment : TemplateError → String
  | unclosedBrace segment _ => segment
  | emptyParameter segment => segment
  | unmatchedClosingBrace segment _ => segment
  | nestedBraces segment _ => segment

/-- The position of the brace at fault; an empty parameter has none. -/
def position? : TemplateError → Option Nat
  | unclosedBrace _ position => some position
  | emptyParameter _ => none
  | unmatchedClosingBrace _ position => some position
  | nestedBraces _ position => some position

def message : TemplateError → String
  | unclosedBrace segment position =>
    "unclosed '\x7b' at position " ++ toString position ++ " in segment '" ++ segment ++ "'"
  | emptyParameter segment => "empty parameter '\x7b\x7d' in segment '" ++ segment ++ "'"
  | unmatchedClosingBrace segment position =>
    "unmatched '\x7d' at position " ++ toString position ++ " in segment '" ++ segment ++ "'"
  | nestedBraces segment position =>
    "nested '\x7b' at position " ++ toString position ++ " in segment '" ++ segment ++ "'"

end TemplateError

/-- The error in the rest of a segment that starts at `position`, after a brace opened at
`opened`. -/
def checkSegmentFrom (segment : String) : (opened : Option Nat) → (position : Nat) → List Char →
    Option TemplateError
  | none, _, [] => none
  | some start, _, [] => some (.unclosedBrace segment start)
  | none, position, c :: cs =>
    if c = '{' then checkSegmentFrom segment (some position) (position + c.utf8Size) cs
    else if c = '}' then some (.unmatchedClosingBrace segment position)
    else checkSegmentFrom segment none (position + c.utf8Size) cs
  | some start, position, c :: cs =>
    if c = '{' then some (.nestedBraces segment position)
    else if c = '}' then
      if position = start + 1 then some (.emptyParameter segment)
      else checkSegmentFrom segment none (position + c.utf8Size) cs
    else checkSegmentFrom segment (some start) (position + c.utf8Size) cs

def checkSegment (segment : List Char) : Option TemplateError :=
  checkSegmentFrom (String.ofList segment) none 0 segment

def checkTemplate (path : String) : Option TemplateError :=
  (Text.splitOn '/' path.toList).findSome? checkSegment

end RequestDocs
