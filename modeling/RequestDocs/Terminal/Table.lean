import RequestDocs.Text.Split
import RequestDocs.Text.Width
/-!
# Tables

Rows of cells under a header, in columns as wide as their widest cell.
-/

namespace RequestDocs

inductive Alignment
  | left
  | right
deriving DecidableEq

structure Cell where
  lines : List String
  alignment : Alignment
deriving DecidableEq

namespace Cell

def ofText (text : String) (alignment : Alignment) : Cell := ⟨Text.split '\n' text, alignment⟩

def width (c : Cell) : Nat := (c.lines.map Text.width).foldl max 0

/-- A line of a cell in a column of a width, with a blank on both sides. -/
def line (c : Cell) (columnWidth index : Nat) : String :=
  let text := (c.lines[index]?).getD ""
  let fill := String.ofList (List.replicate (columnWidth - Text.width text) ' ')
  match c.alignment with
  | .left => " " ++ text ++ fill ++ " "
  | .right => " " ++ fill ++ text ++ " "

end Cell

structure Table where
  header : List Cell
  rows : List (List Cell)

namespace Table

def widths (t : Table) : List Nat :=
  t.rows.foldl (fun widths row => List.zipWith max widths (row.map Cell.width))
    (t.header.map Cell.width)

private def rule (n : Nat) : String := String.ofList (List.replicate n '─')

def brokenRule (widths : List Nat) : String :=
  " ".intercalate (widths.map fun width => rule (width + 2))

def fullRule (widths : List Nat) : String := rule (widths.foldl (fun cells width => cells + width + 3) 0 - 1)

def rowLines (widths : List Nat) (row : List Cell) : List String :=
  (List.range ((row.map (·.lines.length)).foldl max 0)).map fun index =>
    " ".intercalate (List.zipWith (fun cell width => cell.line width index) row widths)

/-- The lines of a table: header and rows between broken rules, with a full rule under the header. -/
def lines (t : Table) : List String :=
  let widths := t.widths
  [brokenRule widths] ++ rowLines widths t.header ++ [fullRule widths] ++
    t.rows.flatMap (rowLines widths) ++ [brokenRule widths]

def text (t : Table) : String := String.join (t.lines.map (· ++ "\n"))

end Table

end RequestDocs
