import SqlConsole.Text.Utf8

/-!
# Byte offsets

Positions in a text are counted in bytes of its UTF-8 form. A `Span` of a text is proper when both
its ends fall between two characters; `slice?` gives the characters of a proper span and nothing
for any other.
-/

namespace SqlConsole.Text

/-- The half-open range of bytes from `start` up to `stop`. -/
structure Span where
  start : Nat
  stop : Nat
  deriving DecidableEq, Repr

/-- The number of bytes of a text. -/
def byteSize : List Char → Nat
  | [] => 0
  | c :: cs => c.utf8Size + byteSize cs

@[simp] theorem byteSize_nil : byteSize [] = 0 := rfl

@[simp] theorem byteSize_cons (c : Char) (cs : List Char) :
    byteSize (c :: cs) = c.utf8Size + byteSize cs := rfl

/-- The bytes counted are those of the UTF-8 form. -/
theorem length_encode (cs : List Char) : (Utf8.encode cs).length = byteSize cs := by
  induction cs with
  | nil => rfl
  | cons c cs ih => simp [ih]

@[simp] theorem byteSize_append (s t : List Char) :
    byteSize (s ++ t) = byteSize s + byteSize t := by
  induction s with
  | nil => simp
  | cons c cs ih => simp [ih, Nat.add_assoc]

/-- The text before and after its first `n` bytes, if no character straddles that point. -/
def cut? : List Char → Nat → Option (List Char × List Char)
  | cs, 0 => some ([], cs)
  | [], _ + 1 => none
  | c :: cs, n + 1 =>
    if c.utf8Size ≤ n + 1 then
      (cut? cs (n + 1 - c.utf8Size)).map fun (s, t) => (c :: s, t)
    else none

/-- The characters of a span, if its ends are in order and between characters. -/
def slice? (cs : List Char) (span : Span) : Option (List Char) :=
  if span.start ≤ span.stop then
    match cut? cs span.start with
    | some (_, rest) => (cut? rest (span.stop - span.start)).map (·.1)
    | none => none
  else none

/-- Cutting a text where its first part ends gives back the two parts. -/
theorem cut?_byteSize (s t : List Char) : cut? (s ++ t) (byteSize s) = some (s, t) := by
  induction s with
  | nil => cases t <;> rfl
  | cons c cs ih =>
    have hpos : 0 < c.utf8Size := c.utf8Size_pos
    obtain ⟨n, hn⟩ : ∃ n, c.utf8Size + byteSize cs = n + 1 :=
      ⟨c.utf8Size + byteSize cs - 1, by omega⟩
    have hsub : n + 1 - c.utf8Size = byteSize cs := by omega
    have hle : c.utf8Size ≤ n + 1 := by omega
    simp [cut?, hn, hle, hsub, ih]

end SqlConsole.Text
