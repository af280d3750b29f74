/-!
# Ranges of characters

Classes of characters as lists of inclusive ranges of code points.
-/

namespace RequestDocs.Text

def inRanges (ranges : List (Nat × Nat)) (code : Nat) : Bool :=
  ranges.any fun (first, last) => first ≤ code && code ≤ last

end RequestDocs.Text
