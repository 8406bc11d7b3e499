import SqlConsole.Number.Binary64
import SqlConsole.Number.Decimal

/-!
# Numbers of JSON documents

A `Numeral` is a number as it is spelled. `value?` is the number it stands for: an integer if it
has neither fraction nor exponent and fits 64 bits, signed or not, otherwise a double. A double is
found with few roundings but not always with one: the digits that fit 64 bits make an integer, the
others only count, and the integer is multiplied or divided by a power of ten. A number too large
for a double stands for nothing.
-/

namespace SqlConsole.Json

/-- A number as it is spelled. -/
structure Numeral where
  negative : Bool
  /-- The digits before the point. -/
  whole : List Char
  /-- The digits behind the point, none if there is no point. -/
  fraction : List Char
  /-- Whether the exponent is negative, and its digits. -/
  exponent : Option (Bool × List Char)
  deriving DecidableEq, Repr

/-- What a numeral stands for. -/
inductive Number where
  | integer (n : Int)
  | float (x : Binary64)
  deriving DecidableEq, Repr

namespace Numeral

/-- Appends digits to a number while it fits 64 bits; gives the number and the digits left. -/
def absorb (n : Nat) : List Char → Nat × List Char
  | [] => (n, [])
  | c :: cs =>
    let n' := 10 * n + (c.toNat - 48)
    if n' < Nat.pow 2 64 then absorb n' cs else (n, c :: cs)

/-- The largest power of ten that one step multiplies or divides by. -/
def maxPower : Nat := 308

/-- A magnitude divided by `10 ^ e`, by powers that doubles hold, until nothing is left of it. -/
def scaleDown (x : Binary64) (e : Nat) : Binary64 :=
  if e ≤ maxPower then x.divMagnitude (.ofNat (Nat.pow 10 e))
  else if x.units = 0 then x
  else scaleDown (x.divMagnitude (.ofNat (Nat.pow 10 maxPower))) (e - maxPower)
termination_by e
decreasing_by simp only [maxPower] at *; omega

/-- A magnitude multiplied by `10 ^ e`, if that is within the range of doubles. -/
def scaleUp? (x : Binary64) (e : Nat) : Option Binary64 :=
  if e ≤ maxPower then (some (x.mulMagnitude (.ofNat (Nat.pow 10 e)))).filter (·.isFinite)
  else if x.units = 0 then some x
  else none

/-- The magnitude `n · 10 ^ e`. -/
def scaled? (n : Nat) (e : Int) : Option Binary64 :=
  if 0 ≤ e then scaleUp? (.ofNat n) e.toNat else some (scaleDown (.ofNat n) (-e).toNat)

/-- The greatest exponent that is told apart from greater ones. -/
def maxExponent : Nat := Nat.pow 2 31 - 1

/-- The magnitude `n · 10 ^ e` with the numeral's own exponent applied. -/
def magnitude? (n : Nat) (e : Int) : Option (Bool × List Char) → Option Binary64
  | none => scaled? n e
  | some (negative, digits) =>
    let own := Decimal.toNat digits
    if own ≤ maxExponent then scaled? n (if negative then e - own else e + own)
    else if negative || n == 0 then some (.ofNat 0)
    else none

/-- The number that a numeral stands for. -/
def value? (a : Numeral) : Option Number :=
  let (n, left) := absorb 0 a.whole
  let isInteger := a.fraction.isEmpty && a.exponent.isNone && left.isEmpty
  if isInteger && !(a.negative && (n == 0 || Nat.pow 2 63 < n)) then
    some (.integer (if a.negative then -n else n))
  else
    let (n', tail) := absorb n a.fraction
    let e : Int := left.length - (a.fraction.length - tail.length)
    (magnitude? n' e a.exponent).map fun x => .float (x.withSign a.negative)

end Numeral

end SqlConsole.Json
