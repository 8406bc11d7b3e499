/-!
# Decimal digits

Numbers are written without a sign if they are not negative and without leading zeros, except
where a least width is asked for.
-/

namespace SqlConsole.Decimal

/-- The digits of a natural number. -/
def ofNat (n : Nat) : List Char := Nat.toDigits 10 n

/-- An integer, with `-` in front if it is negative. -/
def ofInt (i : Int) : List Char := if i < 0 then '-' :: ofNat i.natAbs else ofNat i.natAbs

/-- The digits of a natural number, filled up with zeros on the left to at least `width`. -/
def padded (width n : Nat) : List Char :=
  List.replicate (width - (ofNat n).length) '0' ++ ofNat n

/-- The number that a row of digits denotes; the empty row denotes 0. -/
def toNat (digits : List Char) : Nat := digits.foldl (fun n c => 10 * n + (c.toNat - 48)) 0

end SqlConsole.Decimal
