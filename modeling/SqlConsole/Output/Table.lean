import SqlConsole.Output.Printer
import SqlConsole.Text.Upper
import SqlConsole.Value.Form

/-!
# Aligned tables

Every column is as wide as its widest cell, counted in characters, and five spaces stand between
two columns. Lines lose the blanks at their end. Nothing is written before the last row is known.
-/

namespace SqlConsole.Table

/-- The spaces between two columns. -/
def gap : List Char := List.replicate 5 ' '

/-- The widths of the columns that take in one more line. -/
def widen : List Nat → List (List Char) → List Nat
  | ws, [] => ws
  | [], cell :: cells => cell.length :: widen [] cells
  | w :: ws, cell :: cells => max w cell.length :: widen ws cells

/-- The width of every column. -/
def widths (lines : List (List (List Char))) : List Nat := lines.foldl widen []

/-- A cell filled up with spaces. -/
def pad (width : Nat) (cell : List Char) : List Char :=
  cell ++ List.replicate (width - cell.length) ' '

/-- The cells of a line at their columns. -/
def align : List Nat → List (List Char) → List Char
  | w :: ws, cell :: next :: cells => pad w cell ++ gap ++ align ws (next :: cells)
  | w :: _, [cell] => pad w cell
  | _, _ => []

/-- The lines of a table. -/
def lines (cells : List (List (List Char))) : List String :=
  let ws := widths cells
  cells.map fun line => String.ofList (Text.trimRight (align ws line))

/-- Collects the lines, the header in capitals first. -/
def printer (withHeader : Bool) : Printer (List (List (List Char))) where
  start columns :=
    (if withHeader then [columns.map fun name => (Text.upper name).toList] else [], [])
  row collected cells := (collected ++ [(cells.write .table).map String.toList], [])
  close collected := (lines collected).map .line
  abort _ := []

end SqlConsole.Table
