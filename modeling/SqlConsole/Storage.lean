import SqlConsole.Text.Utf8
import SqlConsole.Value

/-!
# Stored cells

SQLite stores a cell as it likes, whatever type its column was declared with. The declared type
still says what the cell is meant for. A 0 or 1 in a column of booleans is a truth value, and a text
in a column of dates is a timestamp if it is written exactly like one; so either is written back as
it was stored. The declared type counts as a whole, in any letter case.
-/

namespace SqlConsole

/-- A cell as it is stored. The bytes of a text need not be UTF-8. -/
inductive StoredCell where
  | null
  | integer (n : Int64)
  | real (x : Binary64)
  | text (bytes : List UInt8)
  | blob (bytes : List UInt8)
  deriving DecidableEq, Repr

namespace StoredCell

def isBooleanType (declared : String) : Bool :=
  let name := declared.toList.map Char.toUpper
  name == "BOOLEAN".toList || name == "BOOL".toList

def isDateType (declared : String) : Bool :=
  let name := declared.toList.map Char.toUpper
  name == "DATETIME".toList || name == "TIMESTAMP".toList || name == "DATE".toList

/-- The value of a cell in a column of the declared type, if it has one. -/
def value (declared : Option String) : StoredCell → Value
  | null => .null
  | integer n =>
    if declared.any isBooleanType && (n == 0 || n == 1) then .bool (n == 1) else .int n
  | real x => .float x
  | text bytes =>
    let s := Text.Utf8.decodeLossy bytes
    if declared.any isDateType then
      match Timestamp.parse? s.toList with
      | some t => .timestamp t
      | none => .text s
    else .text s
  | blob bytes => .bytes bytes

end StoredCell

end SqlConsole
