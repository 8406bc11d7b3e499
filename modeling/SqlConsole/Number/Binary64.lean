/-!
# Double-precision numbers

A `Binary64` is the 64 bits of an IEEE 754 double. The magnitude of a finite one is a natural
number of units of 2^-1074, the least positive double (`units`), so that all arithmetic on doubles
is arithmetic on natural numbers: `ofRatio` rounds an exact quotient to the nearest double, a tie
to the one with the even significand.
-/

namespace SqlConsole

/-- A double, given by its bits: the sign, eleven bits of exponent, 52 of fraction. -/
structure Binary64 where
  bits : UInt64
  deriving DecidableEq, Repr

namespace Binary64

/-- Whether the sign bit is set, as it is in -0.0. -/
def negative (x : Binary64) : Bool := Nat.pow 2 63 ≤ x.bits.toNat

def exponentField (x : Binary64) : Nat := x.bits.toNat / Nat.pow 2 52 % Nat.pow 2 11

def fractionField (x : Binary64) : Nat := x.bits.toNat % Nat.pow 2 52

def isFinite (x : Binary64) : Bool := x.exponentField != Nat.pow 2 11 - 1

def isNaN (x : Binary64) : Bool := !x.isFinite && x.fractionField != 0

/-- The significand of a finite double; one of a full exponent has its leading bit restored. -/
def significand (x : Binary64) : Nat :=
  if x.exponentField = 0 then x.fractionField else Nat.pow 2 52 + x.fractionField

/-- How far the significand of a finite double is shifted, in bits above the least. -/
def shift (x : Binary64) : Nat := x.exponentField - 1

/-- The magnitude of a finite double in units of 2^-1074. -/
def units (x : Binary64) : Nat := x.significand * Nat.pow 2 x.shift

/-- How many units make 1. -/
def unitsPerOne : Nat := Nat.pow 2 1074

/-- Equality of numbers: nothing equals a NaN, and the two zeros are equal. -/
def same (x y : Binary64) : Bool :=
  !x.isNaN && !y.isNaN &&
    (x.bits == y.bits || (x.isFinite && y.isFinite && x.units == 0 && y.units == 0))

/-- The quotient of two natural numbers, rounded to the nearest one, a tie to the even one. -/
def roundedQuotient (num den : Nat) : Nat :=
  let q := num / den
  let twice := 2 * (num % den)
  if twice < den then q
  else if den < twice then q + 1
  else q + q % 2

/-- The bits of positive infinity, and the least ones of no finite magnitude. -/
def infinityBits : Nat := (Nat.pow 2 11 - 1) * Nat.pow 2 52

/-- The bits of the double nearest to `num / den` units, `den` positive. A significand rounded up
to the next power of two carries into the exponent by itself, and the exponent past the last
into infinity. -/
def magnitudeBits (num den : Nat) : Nat :=
  let shift := (num / den).log2 - 52
  min (shift * Nat.pow 2 52 + roundedQuotient num (den * Nat.pow 2 shift)) infinityBits

/-- The nearest double to `num / den` units, negated if asked. -/
def ofUnits (negative : Bool) (num den : Nat) : Binary64 :=
  ⟨UInt64.ofNat ((if negative then Nat.pow 2 63 else 0) + magnitudeBits num den)⟩

/-- The nearest double to a natural number. -/
def ofNat (n : Nat) : Binary64 := ofUnits false (n * unitsPerOne) 1

/-- The product of two finite magnitudes. -/
def mulMagnitude (x y : Binary64) : Binary64 := ofUnits false (x.units * y.units) unitsPerOne

/-- The quotient of two finite magnitudes, the second one positive. -/
def divMagnitude (x y : Binary64) : Binary64 := ofUnits false (x.units * unitsPerOne) y.units

/-- The same magnitude with the given sign. -/
def withSign (negative : Bool) (x : Binary64) : Binary64 :=
  ⟨UInt64.ofNat ((if negative then Nat.pow 2 63 else 0) + x.bits.toNat % Nat.pow 2 63)⟩

end Binary64

end SqlConsole
