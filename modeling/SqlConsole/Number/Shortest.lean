import SqlConsole.Number.Binary64
import SqlConsole.Number.Decimal

/-!
# Shortest decimal text of a double

`Binary64.shortest` gives the decimal with the fewest digits among those that round to a given
double; of two with as few digits the nearer one, of two equally near the larger. It walks the
powers of ten downward from one above the number. At each it looks at the two multiples that
enclose the number, and takes the first power for which one of the two rounds to the double.

`Binary64.text` writes that decimal in positional notation, with no exponent and no point after a
whole number.
-/

namespace SqlConsole

namespace Binary64

/-- The reals that round to a positive finite double, in quarters of a unit. -/
structure Rounding where
  low : Nat
  value : Nat
  high : Nat
  /-- Whether the two ends belong to them: they round to the even significand. -/
  closed : Bool

/-- Below a power of two the doubles lie twice as close as above it. -/
def rounding (x : Binary64) : Rounding :=
  let gap := Nat.pow 2 x.shift
  { low := 4 * x.units - (if x.fractionField = 0 && 1 < x.exponentField then gap else 2 * gap)
    value := 4 * x.units
    high := 4 * x.units + 2 * gap
    closed := x.significand % 2 = 0 }

/-- A decimal `digits · 10 ^ exponent`. -/
structure Scientific where
  digits : Nat
  exponent : Int
  deriving DecidableEq, Repr

/-- Whether `n / scale` quarters of a unit round to the double. -/
def Rounding.contains (r : Rounding) (n scale : Nat) : Bool :=
  if r.closed then r.low * scale ≤ n && n ≤ r.high * scale
  else r.low * scale < n && n < r.high * scale

/-- The multiple of `10 ^ e` that is nearest to the number among the two that enclose it, if one
of them rounds to the double. -/
def Rounding.onGrid (r : Rounding) (e : Int) : Option Scientific :=
  let scale := Nat.pow 10 (-e).toNat
  let step := Nat.pow 10 e.toNat * (4 * unitsPerOne)
  let below := r.value * scale / step
  let above := below + 1
  let short := r.value * scale - below * step
  match r.contains (below * step) scale, r.contains (above * step) scale with
  | true, true => some ⟨if 2 * short < step then below else above, e⟩
  | true, false => some ⟨below, e⟩
  | false, true => some ⟨above, e⟩
  | false, false => none

/-- The shortest decimal of a positive finite double. No double needs a power of ten below
`10 ^ -345`. -/
def shortest (x : Binary64) : Scientific :=
  let top := (Decimal.ofNat (x.units / unitsPerOne)).length
  let grids := (List.range (top + 346)).map fun (i : Nat) => (top : Int) - i
  (grids.findSome? x.rounding.onGrid).getD ⟨0, 0⟩

/-- A decimal in positional notation. -/
def Scientific.text (s : Scientific) : List Char :=
  let digits := Decimal.ofNat s.digits
  if 0 ≤ s.exponent then digits ++ List.replicate s.exponent.toNat '0'
  else
    let places := (-s.exponent).toNat
    let all := List.replicate (places + 1 - digits.length) '0' ++ digits
    all.take (all.length - places) ++ '.' :: all.drop (all.length - places)

/-- The text of a double: a sign for every negative number and for -0.0, then its shortest
decimal; the three that are not finite have names. -/
def text (x : Binary64) : List Char :=
  if x.isNaN then "NaN".toList
  else
    (if x.negative then ['-'] else []) ++
      if !x.isFinite then "inf".toList
      else if x.units = 0 then ['0']
      else x.shortest.text

end Binary64

end SqlConsole
