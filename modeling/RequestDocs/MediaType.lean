import RequestDocs.Text.Blank
import RequestDocs.Text.Split
/-!
# Media types

Texts of the form `type/subtype+suffix`.
-/

namespace RequestDocs

/-- A media type without parameters, in the spelling it was written in. -/
structure MediaType where
  type : String
  subtype : String
  suffix : Option String
deriving DecidableEq

namespace MediaType

def isNameChar (c : Char) : Bool := c.isAlphanum || "!#$&-^_.+%*'".toList.contains c

/-- A name: at most 127 characters, the first a letter, a digit or a star. -/
def isName (cs : List Char) : Bool :=
  cs.length ≤ 127 && cs.all isNameChar &&
    (cs.head?.map fun c => c.isAlphanum || c == '*').getD false

def splitLast (sep : Char) (cs : List Char) : List Char × Option (List Char) :=
  let after := (cs.reverse.takeWhile (· != sep)).reverse
  if after.length < cs.length then (cs.take (cs.length - after.length - 1), some after)
  else (cs, none)

/-- The suffix after a plus; `none` when it is not well formed. Nothing after the plus is no
suffix, and the first character of a suffix is free. -/
def readSuffix : Option (List Char) → Option (Option String)
  | none => some none
  | some [] => some none
  | some (c :: cs) => if isName cs then some (some (String.ofList (c :: cs))) else none

def parse? (s : String) : Option MediaType :=
  let cs := s.toList
  let type := cs.takeWhile (· != '/')
  match cs.drop type.length with
  | [] => none
  | _ :: rest =>
    let (name, left) := rest.span isNameChar
    let (subtype, suffix) := splitLast '+' name
    if isName type && isName subtype && left.all fun c => c == ' ' || c == '\t' then
      (readSuffix suffix).map fun suffix => ⟨String.ofList type, String.ofList subtype, suffix⟩
    else none

def essence? (contentType : String) : Option MediaType :=
  parse? (Text.trim (Text.before ';' contentType))

def sameName (a b : String) : Bool := a.toList.map Char.toLower == b.toList.map Char.toLower

def isJson (m : MediaType) : Bool :=
  sameName m.type "application" &&
    match m.suffix with
    | none => sameName m.subtype "json"
    | some suffix => sameName m.subtype "merge-patch" && sameName suffix "json"

end MediaType

/-- Whether a content type stands for JSON; parameters are ignored. -/
def isJsonContentType (contentType : String) : Bool :=
  ((MediaType.essence? contentType).map MediaType.isJson).getD false

end RequestDocs
