import RiskScan.Console.Markup
import RiskScan.Text.Width
/-!
# Tables on a console

A table has a header, a heavy frame around it and a light one around the rows. Every column is as
wide as the widest line in it, with a blank on either side. The cells are markup and may have
several lines; a row is as high as its highest cell.
-/

namespace RiskScan.Console.Table

/-- The lines of a cell; a line end at its end is followed by an empty line. -/
def cellLines (markup : String) : List String :=
  (Markup.plain markup).splitOn "\n"

abbrev Row := List (List String)

def rowOf (cells : List String) : Row :=
  cells.map cellLines

def cellWidth (lines : List String) : Nat :=
  (lines.map Text.width).foldl max 0

/-- The widths of the columns of a table whose rows all have a cell for each of them. -/
def columnWidths : List Row → List Nat
  | [] => []
  | [row] => row.map cellWidth
  | row :: rows => List.zipWith max (row.map cellWidth) (columnWidths rows)

def repeated (count : Nat) (c : Char) : String :=
  String.ofList (List.replicate count c)

/-- A line of a cell between two blanks, filled up to the width of its column. -/
def padCell (width : Nat) (line : String) : String :=
  " " ++ line ++ repeated (width - Text.width line) ' ' ++ " "

/-- A line across the table, from pieces for the columns. -/
def across (first between last : String) (pieces : List String) : String :=
  first ++ between.intercalate pieces ++ last ++ "\n"

def rule (first : String) (line : Char) (between last : String) (widths : List Nat) : String :=
  across first between last (widths.map fun width => repeated (width + 2) line)

def rowLine (bar : String) (widths : List Nat) (row : Row) (index : Nat) : String :=
  across bar bar bar
    (List.zipWith (fun width lines => padCell width (lines.getD index "")) widths row)

def rowLines (bar : String) (widths : List Nat) (row : Row) : String :=
  let height := (row.map List.length).foldl max 0
  String.join ((List.range height).map (rowLine bar widths row))

def render (header : List String) (rows : List (List String)) : String :=
  let header := rowOf header
  let rows := rows.map rowOf
  let widths := columnWidths (header :: rows)
  rule "┏" '━' "┳" "┓" widths ++ rowLines "┃" widths header ++ rule "┡" '━' "╇" "┩" widths ++
    String.join (rows.map (rowLines "│" widths)) ++ rule "└" '─' "┴" "┘" widths

end RiskScan.Console.Table
