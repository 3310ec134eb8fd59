import TimedPatterns.Text.Blank
import TimedPatterns.Text.Width

/-!
# Grids

A table drawn with lines and rounded corners: a header, a line under it, and rows. A column is as
wide as its widest line; a cell of several lines makes its row as high. A grid without rows ends
in the line under the header.
-/

namespace TimedPatterns.Text

/-- On which side of a column its cells stand. -/
inductive Alignment where
  | left
  | right
  deriving DecidableEq, Repr

structure Column where
  heading : String
  alignment : Alignment := .left
  deriving DecidableEq, Repr

structure Grid where
  columns : List Column
  rows : List (List String)
  deriving DecidableEq, Repr

namespace Grid

def cellLines (cell : String) : List (List Char) := pieces (· == '\n') cell.toList

def cellWidth (cell : String) : Nat := ((cellLines cell).map width).foldl max 0

def blanks (count : Nat) : List Char := List.replicate count ' '

/-- The lines of a cell that is drawn into a column: the whole cell is moved to its side. -/
def drawCell (columnWidth height : Nat) (alignment : Alignment) (cell : String) :
    List (List Char) :=
  let lines := cellLines cell
  let indent := match alignment with
    | .left => 0
    | .right => columnWidth - cellWidth cell
  let drawn := lines.map fun line =>
    blanks indent ++ line ++ blanks (columnWidth - indent - width line)
  drawn ++ List.replicate (height - lines.length) (blanks columnWidth)

def widths (g : Grid) : List Nat :=
  g.columns.mapIdx fun i column =>
    ((column.heading :: g.rows.filterMap (·[i]?)).map cellWidth).foldl max 0

def drawBorder (g : Grid) (left crossing right : Char) : List Char :=
  let dashes := g.widths.map fun w => List.replicate (w + 2) '─'
  left :: [crossing].intercalate dashes ++ [right]

def drawLine (cells : List (List Char)) : List Char :=
  "│ ".toList ++ " │ ".toList.intercalate cells ++ " │".toList

def drawRow (g : Grid) (cells : List String) : List (List Char) :=
  let height := (cells.map fun cell => (cellLines cell).length).foldl max 1
  let drawn := (g.columns.zip (g.widths.zip cells)).map fun (column, columnWidth, cell) =>
    drawCell columnWidth height column.alignment cell
  (List.range height).map fun i => drawLine (drawn.map fun lines => (lines[i]?).getD [])

def draw (g : Grid) : List (List Char) :=
  [g.drawBorder '╭' '┬' '╮'] ++ g.drawRow (g.columns.map (·.heading))
    ++ [g.drawBorder '├' '┼' '┤']
    ++ if g.rows.isEmpty then []
      else g.rows.flatMap g.drawRow ++ [g.drawBorder '╰' '┴' '╯']

def render (g : Grid) : String := String.ofList (['\n'].intercalate g.draw)

end Grid

end TimedPatterns.Text
