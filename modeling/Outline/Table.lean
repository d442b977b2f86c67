import Outline.Text.Columns

/-!
# Tables with rounded corners

A table is a header and rows of cells, drawn with one blank on both sides of each cell. A column is
as wide as its widest line, in terminal columns. A cell of several lines makes its row as high; the
shorter cells of the row are filled with blank lines below.
-/
namespace Outline.Table

def cellWidth (cell : String) : Nat := ((Text.lines cell).map Text.columns).foldl max 0

/-- The width of each column over all rows. -/
def widths (rows : List (List String)) : List Nat :=
  let wider (a b : Option Nat) : Nat := max (a.getD 0) (b.getD 0)
  rows.foldl (fun ws row => ws.zipWithAll wider (row.map cellWidth)) []

/-- A horizontal line: its left end, the crossing between two columns, its right end. -/
def rule (left cross right : String) (ws : List Nat) : String :=
  left ++ cross.intercalate (ws.map fun w => String.ofList (List.replicate (w + 2) '─')) ++ right

/-- The lines of one row. -/
def rowLines (ws : List Nat) (row : List String) : List String :=
  let cells := row.map Text.lines
  let height := (cells.map List.length).foldl max 0
  (List.range height).map fun k =>
    let parts := (ws.zip cells).map fun (w, ls) => " " ++ Text.padRight w ((ls[k]?).getD "") ++ " "
    "│" ++ "│".intercalate parts ++ "│"

def render (header : List String) (rows : List (List String)) : String :=
  let ws := widths (header :: rows)
  "\n".intercalate <|
    [rule "╭" "┬" "╮" ws] ++ rowLines ws header ++ [rule "├" "┼" "┤" ws] ++
      rows.flatMap (rowLines ws) ++ [rule "╰" "┴" "╯" ws]

end Outline.Table
