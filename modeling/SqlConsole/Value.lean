import SqlConsole.Number.Binary64
import SqlConsole.Timestamp

/-!
# Values

What a cell of a result holds. An unsigned integer is kept apart only where a signed one cannot
hold it (`ofUInt64`), so that equal integers are equal values.
-/

namespace SqlConsole

/-- The content of one cell. -/
inductive Value where
  | null
  | bool (b : Bool)
  | int (n : Int64)
  | uint (n : UInt64)
  | float (x : Binary64)
  | text (s : String)
  | bytes (bs : List UInt8)
  | timestamp (t : Timestamp)
  deriving DecidableEq, Repr

/-- The cells of one row, one per column. -/
abbrev Row := List Value

namespace Value

def isNull : Value → Bool
  | null => true
  | _ => false

/-- An unsigned integer: a signed value if it fits one. -/
def ofUInt64 (n : UInt64) : Value :=
  if n.toNat < Nat.pow 2 63 then int n.toInt64 else uint n

/-- Nothing is NULL, something is the value made of it. -/
def ofOption {α : Type} (f : α → Value) : Option α → Value
  | none => null
  | some a => f a

/-- Equality as numbers go: a NaN differs from itself and the two zeros agree. Values of different
kinds are never the same. -/
def same : Value → Value → Bool
  | float x, float y => x.same y
  | v, w => v == w

/-- Whether two rows hold the same values. -/
def sameRow : Row → Row → Bool
  | [], [] => true
  | v :: vs, w :: ws => v.same w && sameRow vs ws
  | _, _ => false

end Value

end SqlConsole
