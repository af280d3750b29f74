import RequestDocs.Text.Split
/-!
# Spellings

Names are in ASCII. How other characters are spelled there and how words are put together in Pascal
case is left to a spelling, of which names only rely on what they keep.
-/

namespace RequestDocs

namespace Naming

def capitalize : List Char → List Char
  | [] => []
  | c :: cs => c.toUpper :: cs

def lowercase (cs : List Char) : List Char := cs.map Char.toLower

theorem lowercase_append (as bs : List Char) :
    lowercase (as ++ bs) = lowercase as ++ lowercase bs := List.map_append

/-- Runs of letters and digits, at least one. -/
structure AreChunks (cs : List (List Char)) : Prop where
  ne_nil : cs ≠ []
  nonempty : ∀ chunk ∈ cs, chunk ≠ []
  alphanumeric : ∀ chunk ∈ cs, ∀ c ∈ chunk, c.isAlphanum

end Naming

open Naming Text

/-- The spelling of characters in ASCII, and Pascal case for words joined by underscores. Pascal
case keeps the letters and digits of the words apart from letter case, and does not start with a
small letter. -/
class Spelling where
  ascii : Char → List Char
  pascal : List Char → List Char
  letters : ∀ cs, AreChunks cs → lowercase (pascal (joinWith '_' cs)) = lowercase cs.flatten
  capital : ∀ cs, AreChunks cs → ∀ c ∈ (pascal (joinWith '_' cs)).head?, ¬c.isLower

end RequestDocs
