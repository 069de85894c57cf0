import JobHierarchy.Text.Split
import JobHierarchy.Text.Width
/-!
# Tables

Tables of texts, drawn with lines. A column is as wide as its widest line, in columns of a
terminal, and one space stands on both sides of a text. A text of several lines makes its row
higher.
-/

namespace JobHierarchy.Output

structure Table where
  header : List String
  rows : List (List String)
  deriving DecidableEq, Repr

/-- The characters of a horizontal line. -/
structure Ruling where
  left : String
  line : Char
  cross : String
  right : String

namespace Table

def top : Ruling := ⟨"┌", '─', "┬", "┐"⟩
def underHeader : Ruling := ⟨"╞", '═', "╪", "╡"⟩
def betweenRows : Ruling := ⟨"├", '╌', "┼", "┤"⟩
def bottom : Ruling := ⟨"└", '─', "┴", "┘"⟩

def Ruling.draw (r : Ruling) (widths : List Nat) : String :=
  r.left ++ r.cross.intercalate (widths.map fun w => "".pushn r.line (w + 2)) ++ r.right

/-- The lines of the cells of a row. -/
def lines (row : List String) : List (List String) := row.map (Text.parts '\n')

/-- The width of a column, by the lines of its cells. -/
def columnWidth (cells : List String) : Nat :=
  ((cells.flatMap (Text.parts '\n')).map Text.width).foldl max 0

def widths (t : Table) : List Nat :=
  (List.range t.header.length).map fun i =>
    columnWidth ((t.header :: t.rows).map fun row => row.getD i "")

/-- A text with spaces up to a width. -/
def padded (width : Nat) (s : String) : String := s.pushn ' ' (width - Text.width s)

/-- One line of a row, from the lines of its cells. -/
def rowLine (widths : List Nat) (cells : List (List String)) (i : Nat) : String :=
  "│" ++ "┆".intercalate ((widths.zip cells).map fun (w, cell) =>
    " " ++ padded w (cell.getD i "") ++ " ") ++ "│"

def row (widths : List Nat) (cells : List String) : List String :=
  let cells := lines cells
  (List.range ((cells.map List.length).foldl max 1)).map (rowLine widths cells)

/-- The lines of a table. -/
def draw (t : Table) : List String :=
  let widths := t.widths
  Ruling.draw top widths :: row widths t.header
    ++ Ruling.draw underHeader widths
    :: [Ruling.draw betweenRows widths].intercalate (t.rows.map (row widths))
    ++ [Ruling.draw bottom widths]

end Table

end JobHierarchy.Output
