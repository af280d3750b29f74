/-!
# Tree paths

Positions in the output tree as lists of segments, and the way from one to another.
-/

namespace RequestDocs

/-- A position below the root of a tree. -/
structure TreePath where
  segments : List String
deriving DecidableEq

namespace TreePath

def parentSegment : String := ".."

def root : TreePath := ⟨[]⟩

def isRoot (p : TreePath) : Bool := p.segments.isEmpty

def parent? (p : TreePath) : Option TreePath :=
  if p.isRoot then none else some ⟨p.segments.dropLast⟩

/-- The directory that holds a position; the root holds itself. -/
def directory (p : TreePath) : TreePath := p.parent?.getD root

def enter (p : TreePath) (segments : List String) : TreePath := ⟨p.segments ++ segments⟩

def commonLength : List String → List String → Nat
  | a :: as, b :: bs => if a = b then commonLength as bs + 1 else 0
  | _, _ => 0

/-- The way from one position to another: one `up` for every segment beyond the common prefix, then
the remaining segments of the target. -/
def relative (p target : TreePath) (up : String) : List String :=
  let common := commonLength p.segments target.segments
  List.replicate (p.segments.length - common) up ++ target.segments.drop common

theorem take_commonLength (as bs : List String) :
    as.take (commonLength as bs) = bs.take (commonLength as bs) := by
  fun_induction commonLength as bs with
  | case1 a as bs ih => simp [ih]
  | case2 a as b bs h => rfl
  | case3 => rfl

theorem commonLength_le (as bs : List String) :
    commonLength as bs ≤ as.length ∧ commonLength as bs ≤ bs.length := by
  fun_induction commonLength as bs with
  | case1 a as bs ih => simpa using ih
  | case2 a as b bs h => simp
  | case3 => simp

end TreePath

end RequestDocs
