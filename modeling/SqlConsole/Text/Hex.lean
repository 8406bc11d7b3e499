/-!
# Hexadecimal digits
-/

namespace SqlConsole.Text

/-- The digit of a number below 16, in capitals. -/
def hexDigit (n : Nat) : Char := if n < 10 then Char.ofNat (48 + n) else Char.ofNat (55 + n)

/-- Two digits per byte, in capitals. -/
def hexBytes (bs : List UInt8) : List Char :=
  bs.flatMap fun b => [hexDigit (b.toNat / 16), hexDigit (b.toNat % 16)]

end SqlConsole.Text
