import AppReport.Text.Blank

/-!
# Aligned columns

Every cell of a table begins at the same offset in every line: each column is as wide as its
widest cell and `padding` more. The last cell of a line is not padded, and no line ends in a blank.
-/

namespace AppReport.Columns

/-- The blanks in front of every line. -/
def indent : List Char := [' ', ' ']

/-- The least number of blanks between two cells. -/
def padding : Nat := 4

/-- A line of a table before it is laid out. -/
abbrev Row := List (List Char)

/-- The width of a column: that of its widest cell. -/
def width (rows : List Row) (column : Nat) : Nat :=
  (rows.map fun row => (row.getD column []).length).foldl max 0

/-- The widths of the columns of a table, as many as its first line has. -/
def widths (rows : List Row) : List Nat :=
  match rows with
  | [] => []
  | row :: _ => (List.range row.length).map (width rows)

/-- A cell that fills a column. -/
def pad (width : Nat) (cell : List Char) : List Char :=
  cell ++ List.replicate (width + padding - cell.length) ' '

/-- The cells of a line side by side. -/
def joinCells : List Nat → Row → List Char
  | _, [] => []
  | _, [cell] => cell
  | w :: ws, cell :: rest => pad w cell ++ joinCells ws rest
  | [], cell :: rest => pad 0 cell ++ joinCells [] rest

/-- A line of a table with columns of given widths. -/
def line (ws : List Nat) (row : Row) : List Char := Text.trimRight (indent ++ joinCells ws row)

/-- The lines of a table. -/
def layOut (rows : List Row) : List (List Char) := rows.map (line (widths rows))

/-- The line under the titles of a table. -/
def underline (titles : Row) : Row := titles.map fun title => List.replicate title.length '-'

/-- The lines of a table with titles. -/
def table (titles : Row) (rows : List Row) : List (List Char) :=
  layOut (titles :: underline titles :: rows)

end AppReport.Columns
