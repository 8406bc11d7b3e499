import SqlConsole.Number.Shortest
import SqlConsole.Text.Enclosed
import SqlConsole.Text.Hex
import SqlConsole.Value

/-!
# Text forms of values

A value is written in one of four forms. Three of them write the same plain text; they differ in
what is made of the text afterwards. The fourth is a SQL literal, which reads back as the value:
text, bytes and timestamps are quoted, an infinity is a number too large for a double, and a NaN
is NULL, since SQL has no other word for it.
-/

namespace SqlConsole

/-- What a written value is meant for. -/
inductive Form where
  /-- A cell of an aligned table. -/
  | table
  /-- A SQL literal. -/
  | literal
  /-- A field of a CSV record, before any quoting. -/
  | csv
  /-- A field of a JSON record, before any escaping. -/
  | json
  deriving DecidableEq, Repr

namespace Value

/-- The value as it is shown. -/
def plain : Value → List Char
  | null => "NULL".toList
  | bool true => "true".toList
  | bool false => "false".toList
  | int n => Decimal.ofInt n.toInt
  | uint n => Decimal.ofNat n.toNat
  | float x => x.text
  | text s => s.toList
  | bytes bs => '0' :: 'x' :: Text.hexBytes bs
  | timestamp t => t.text

/-- The value as a SQL literal. -/
def literal : Value → List Char
  | float x =>
    if x.isFinite then x.text
    else if x.isNaN then "NULL".toList
    else if x.negative then "-9e999".toList
    else "9e999".toList
  | text s => Text.enclosed '\'' s.toList
  | bytes bs => 'X' :: Text.enclosed '\'' (Text.hexBytes bs)
  | timestamp t => Text.enclosed '\'' t.text
  | v => v.plain

/-- The value written in a form. -/
def write (form : Form) (v : Value) : String :=
  String.ofList (match form with
    | .literal => v.literal
    | .table | .csv | .json => v.plain)

end Value

/-- The cells of a row written in a form. -/
def Row.write (form : Form) (row : Row) : List String := row.map (·.write form)

end SqlConsole
