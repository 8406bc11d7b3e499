import SqlConsole.Text.Utf8

/-!
# Base64

The standard alphabet without padding: four symbols stand for three bytes, and a last group of
two or three symbols for one or two. The bits of the last symbol that no byte needs are zero, so
that bytes have one spelling only. `decode` also takes any number of `=` at the end.
-/

namespace SqlConsole.Base64

/-- Why a text is no base64. Offsets count the bytes of the text. -/
inductive Fault where
  /-- A byte outside the alphabet. -/
  | symbol (byte : UInt8) (offset : Nat)
  /-- A last symbol with bits set that no byte needs. -/
  | lastSymbol (byte : UInt8) (offset : Nat)
  /-- A last group of one symbol. -/
  | length (symbols : Nat)
  deriving DecidableEq, Repr

namespace Fault

def message : Fault → String
  | symbol byte offset =>
    "Invalid symbol " ++ toString byte.toNat ++ ", offset " ++ toString offset ++ "."
  | lastSymbol byte offset =>
    "Invalid last symbol " ++ toString byte.toNat ++ ", offset " ++ toString offset ++ "."
  | length symbols => "Invalid input length: " ++ toString symbols

end Fault

/-- The six bits that a symbol stands for. -/
def bitsOf? (symbol : UInt8) : Option Nat :=
  let n := symbol.toNat
  if 65 ≤ n ∧ n ≤ 90 then some (n - 65)
  else if 97 ≤ n ∧ n ≤ 122 then some (n - 71)
  else if 48 ≤ n ∧ n ≤ 57 then some (n + 4)
  else if n = 43 then some 62
  else if n = 47 then some 63
  else none

/-- The first byte outside the alphabet and its offset, counted from `offset`. -/
def foreign? : List UInt8 → Nat → Option (UInt8 × Nat)
  | [], _ => none
  | b :: bs, offset => if (bitsOf? b).isNone then some (b, offset) else foreign? bs (offset + 1)

/-- The bytes that rows of six bits stand for; `none` if they end in a lone symbol or if the last
one has bits to spare that are set. -/
def bytes? : List Nat → Option (List UInt8)
  | [] => some []
  | [_] => none
  | [a, b] => if b % 16 = 0 then some [UInt8.ofNat (a * 4 + b / 16)] else none
  | [a, b, c] =>
    if c % 4 = 0 then some [UInt8.ofNat (a * 4 + b / 16), UInt8.ofNat (b % 16 * 16 + c / 4)]
    else none
  | a :: b :: c :: d :: rest =>
    (bytes? rest).map fun bs =>
      UInt8.ofNat (a * 4 + b / 16) :: UInt8.ofNat (b % 16 * 16 + c / 4) ::
        UInt8.ofNat (c % 4 * 64 + d) :: bs

/-- The symbols of a text, the `=` at its end left out. -/
def symbols (text : String) : List UInt8 :=
  ((Text.Utf8.encode text.toList).reverse.dropWhile (· == 61)).reverse

/-- The byte outside the alphabet that is reported, and its offset. It is the first one, but where
a single byte is left over behind the groups of four, that byte is looked at before the others. -/
def stray? (symbols : List UInt8) : Option (UInt8 × Nat) :=
  let leftOver := if symbols.length % 4 = 1 then symbols.getLast? else none
  match leftOver.filter fun b => (bitsOf? b).isNone with
  | some b => some (b, symbols.length - 1)
  | none => foreign? symbols 0

/-- The bytes that a text stands for. -/
def decode (text : String) : Except Fault (List UInt8) :=
  let all := symbols text
  match stray? all with
  | some (byte, offset) => .error (.symbol byte offset)
  | none =>
    if all.length % 4 = 1 then .error (.length all.length)
    else match bytes? (all.filterMap bitsOf?) with
      | some bs => .ok bs
      | none => .error (.lastSymbol (all.getLast?.getD 0) (all.length - 1))

end SqlConsole.Base64
