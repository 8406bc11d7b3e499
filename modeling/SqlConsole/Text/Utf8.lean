/-!
# UTF-8

`encode` gives the bytes of a text. `decodeLossy` reads bytes as a text; where they are not UTF-8,
each longest beginning of a character that breaks off, and each byte that begins none, becomes one
replacement character.
-/

namespace SqlConsole.Text.Utf8

/-- The bytes of a text. -/
def encode (cs : List Char) : List UInt8 := cs.flatMap String.utf8EncodeChar

@[simp] theorem encode_nil : encode [] = [] := rfl

@[simp] theorem encode_cons (c : Char) (cs : List Char) :
    encode (c :: cs) = String.utf8EncodeChar c ++ encode cs := by
  simp [encode]

@[simp] theorem encode_append (s t : List Char) : encode (s ++ t) = encode s ++ encode t := by
  simp [encode]

/-- A character of which some bytes were read. -/
structure Partial where
  /-- The number of bytes to come. -/
  need : Nat
  /-- The bounds of the next byte. -/
  low : Nat
  high : Nat
  /-- The bits read so far. -/
  value : Nat
  deriving DecidableEq, Repr

def replacement : Char := Char.ofNat 0xFFFD

/-- Reads a byte where a character begins. -/
def begin (b : UInt8) : List Char × Option Partial :=
  let n := b.toNat
  if n < 0x80 then ([Char.ofNat n], none)
  else if 0xC2 ≤ n ∧ n ≤ 0xDF then ([], some ⟨1, 0x80, 0xBF, n - 0xC0⟩)
  else if n = 0xE0 then ([], some ⟨2, 0xA0, 0xBF, 0⟩)
  else if n = 0xED then ([], some ⟨2, 0x80, 0x9F, 0xD⟩)
  else if 0xE1 ≤ n ∧ n ≤ 0xEF then ([], some ⟨2, 0x80, 0xBF, n - 0xE0⟩)
  else if n = 0xF0 then ([], some ⟨3, 0x90, 0xBF, 0⟩)
  else if 0xF1 ≤ n ∧ n ≤ 0xF3 then ([], some ⟨3, 0x80, 0xBF, n - 0xF0⟩)
  else if n = 0xF4 then ([], some ⟨3, 0x80, 0x8F, 4⟩)
  else ([replacement], none)

/-- Reads a byte within a character. A byte that does not fit begins anew. -/
def proceed (p : Partial) (b : UInt8) : List Char × Option Partial :=
  if p.low ≤ b.toNat ∧ b.toNat ≤ p.high then
    let value := p.value * 0x40 + b.toNat % 0x40
    if p.need = 1 then ([Char.ofNat value], none)
    else ([], some ⟨p.need - 1, 0x80, 0xBF, value⟩)
  else
    let (cs, next) := begin b
    (replacement :: cs, next)

/-- Reads the bytes behind a beginning of a character, if there is one. -/
def decodeFrom : Option Partial → List UInt8 → List Char
  | none, [] => []
  | some _, [] => [replacement]
  | none, b :: bs =>
    let (cs, next) := begin b
    cs ++ decodeFrom next bs
  | some p, b :: bs =>
    let (cs, next) := proceed p b
    cs ++ decodeFrom next bs

/-- The text of bytes, with replacements for what is not UTF-8. -/
def decodeLossy (bs : List UInt8) : String := String.ofList (decodeFrom none bs)

end SqlConsole.Text.Utf8
