import Mathlib.Algebra.Group.Nat.Defs
import Mathlib.Tactic.SplitIfs
import SqlConsole.Number.Binary64

/-!
# Rounding keeps the order

Doubles that are no negative numbers are in the order of their bits (`Binary64.units_mono`), and a
greater quotient is rounded to no fewer bits (`Binary64.magnitudeBits_mono`): where two exponents
differ, the greater one makes up for the significands. So of two products the one with the lesser
factors is finite if the other one is (`Binary64.isFinite_mulMagnitude_of_le`).
-/

namespace SqlConsole.Binary64

/-! ## Quotients -/

theorem roundedQuotient_bounds (num den : Nat) :
    num / den ≤ roundedQuotient num den ∧ roundedQuotient num den ≤ num / den + 1 := by
  rw [roundedQuotient]
  split
  · omega
  · split <;> omega

theorem roundedQuotient_mono {num num' : Nat} (h : num ≤ num') (den : Nat) :
    roundedQuotient num den ≤ roundedQuotient num' den := by
  have hquotient : num / den ≤ num' / den := Nat.div_le_div_right h
  rcases Nat.lt_or_eq_of_le hquotient with hlt | heq
  · have hhigh := (roundedQuotient_bounds num den).2
    have hlow := (roundedQuotient_bounds num' den).1
    omega
  · -- The quotients agree, so that the remainders are in order.
    have hmod : num % den ≤ num' % den := by
      have hnum := Nat.div_add_mod num den
      have hnum' := Nat.div_add_mod num' den
      rw [heq] at hnum
      omega
    simp only [roundedQuotient, heq]
    split_ifs <;> omega

/-! ## Bits -/

/-- How far the significand of a quotient is shifted. -/
def shiftOf (q : Nat) : Nat := q.log2 - 52

theorem shiftOf_mono {q q' : Nat} (h : q ≤ q') : shiftOf q ≤ shiftOf q' := by
  by_cases hq : q = 0
  · rw [hq]
    exact Nat.zero_le _
  · have hq' : q' ≠ 0 := by omega
    exact Nat.sub_le_sub_right ((Nat.le_log2 hq').mpr (Nat.le_trans (Nat.log2_self_le hq) h)) 52

/-- A significand has 53 bits at most. -/
theorem div_shiftOf_lt (q : Nat) : q / 2 ^ shiftOf q < 2 ^ 53 := by
  rw [Nat.div_lt_iff_lt_mul (Nat.two_pow_pos _), ← Nat.pow_add]
  have hpow : 2 ^ (q.log2 + 1) ≤ 2 ^ (53 + shiftOf q) :=
    Nat.pow_le_pow_right (by decide) (by rw [shiftOf]; omega)
  exact Nat.lt_of_lt_of_le Nat.lt_log2_self hpow

/-- One that is shifted has as many. -/
theorem le_div_shiftOf {q : Nat} (h : 0 < shiftOf q) : 2 ^ 52 ≤ q / 2 ^ shiftOf q := by
  have hlog : 52 + shiftOf q = q.log2 := by
    rw [shiftOf] at *
    omega
  have hq : q ≠ 0 := by
    rintro rfl
    exact absurd h (by decide)
  rw [Nat.le_div_iff_mul_le (Nat.two_pow_pos _), ← Nat.pow_add, hlog]
  exact Nat.log2_self_le hq

/-- **A greater quotient is rounded to no fewer bits.** -/
theorem magnitudeBits_mono {num num' : Nat} (h : num ≤ num') (den : Nat) :
    magnitudeBits num den ≤ magnitudeBits num' den := by
  have hquotient : num / den ≤ num' / den := Nat.div_le_div_right h
  have hbits (num : Nat) : magnitudeBits num den =
      min (shiftOf (num / den) * 2 ^ 52 + roundedQuotient num (den * 2 ^ shiftOf (num / den)))
        infinityBits := rfl
  rw [hbits, hbits]
  refine Nat.le_min.mpr ⟨Nat.le_trans (Nat.min_le_left _ _) ?_, Nat.min_le_right _ _⟩
  rcases Nat.lt_or_eq_of_le (shiftOf_mono hquotient) with hlt | heq
  · have hhigh := (roundedQuotient_bounds num (den * 2 ^ shiftOf (num / den))).2
    have hlow := (roundedQuotient_bounds num' (den * 2 ^ shiftOf (num' / den))).1
    rw [← Nat.div_div_eq_div_mul] at hhigh hlow
    have hfew := div_shiftOf_lt (num / den)
    have hfull := le_div_shiftOf (Nat.zero_lt_of_lt hlt)
    omega
  · rw [heq]
    exact Nat.add_le_add_left (roundedQuotient_mono h _) _

theorem magnitudeBits_le (num den : Nat) : magnitudeBits num den ≤ infinityBits :=
  Nat.min_le_right _ _

theorem infinityBits_eq : infinityBits = 2047 * 2 ^ 52 := rfl

/-- The bits of a rounded number that is not negative. -/
theorem toNat_bits_ofUnits (num den : Nat) :
    (ofUnits false num den).bits.toNat = magnitudeBits num den := by
  have hle := magnitudeBits_le num den
  rw [infinityBits_eq] at hle
  have hbits : (ofUnits false num den).bits.toNat = (0 + magnitudeBits num den) % 2 ^ 64 :=
    UInt64.toNat_ofNat'
  omega

theorem isFinite_ofUnits (num den : Nat) :
    (ofUnits false num den).isFinite = true ↔ magnitudeBits num den < infinityBits := by
  have hle := magnitudeBits_le num den
  have hfinite : (ofUnits false num den).isFinite = true ↔
      (ofUnits false num den).bits.toNat / 2 ^ 52 % 2 ^ 11 ≠ 2 ^ 11 - 1 := by
    simp [isFinite, exponentField]
  rw [hfinite, toNat_bits_ofUnits]
  rw [infinityBits_eq] at *
  omega

theorem fractionField_lt (x : Binary64) : x.fractionField < 2 ^ 52 := Nat.mod_lt _ (by decide)

/-- What doubles of one exponent stay below. -/
theorem units_le (x : Binary64) : x.units ≤ 2 ^ 52 * 2 ^ x.exponentField := by
  have hfraction := x.fractionField_lt
  rw [units, significand, shift]
  cases x.exponentField with
  | zero => simpa using Nat.le_of_lt hfraction
  | succ e =>
    have hbit : Nat.pow 2 52 = 2 ^ 52 := rfl
    have hsignificand : Nat.pow 2 52 + x.fractionField ≤ 2 ^ 52 * 2 := by omega
    calc
      (Nat.pow 2 52 + x.fractionField) * 2 ^ e ≤ 2 ^ 52 * 2 * 2 ^ e :=
        Nat.mul_le_mul_right _ hsignificand
      _ = 2 ^ 52 * 2 ^ (e + 1) := by rw [Nat.mul_assoc, ← Nat.pow_succ']

/-- **Doubles are in the order of their bits**, the negative ones left out. -/
theorem units_mono {x y : Binary64} (h : x.bits.toNat ≤ y.bits.toNat)
    (hy : y.bits.toNat < 2 ^ 63) : x.units ≤ y.units := by
  have hfields (z : Binary64) (hz : z.bits.toNat < 2 ^ 63) :
      z.bits.toNat = z.exponentField * 2 ^ 52 + z.fractionField := by
    have hexponent : z.exponentField = z.bits.toNat / 2 ^ 52 % 2 ^ 11 := rfl
    have hfraction : z.fractionField = z.bits.toNat % 2 ^ 52 := rfl
    omega
  have hx := hfields x (Nat.lt_of_le_of_lt h hy)
  have hy := hfields y hy
  have hxf := x.fractionField_lt
  have hyf := y.fractionField_lt
  rcases Nat.lt_trichotomy x.exponentField y.exponentField with hlt | heq | hgt
  · -- The exponent of `y` makes up for all that the fraction of `x` can hold.
    have hfull : 2 ^ 52 ≤ y.significand := by
      rw [significand, if_neg (Nat.ne_zero_of_lt hlt)]
      exact Nat.le_add_right _ _
    have hshift : x.exponentField ≤ y.shift := Nat.le_sub_one_of_lt hlt
    calc
      x.units ≤ 2 ^ 52 * 2 ^ x.exponentField := x.units_le
      _ ≤ 2 ^ 52 * 2 ^ y.shift :=
        Nat.mul_le_mul_left _ (Nat.pow_le_pow_right (by decide) hshift)
      _ ≤ y.units := Nat.mul_le_mul_right _ hfull
  · have hsignificand : x.significand ≤ y.significand := by
      rw [significand, significand, heq]
      split <;> omega
    have hshift : x.shift = y.shift := by rw [shift, shift, heq]
    rw [units, units, hshift]
    exact Nat.mul_le_mul_right _ hsignificand
  · omega

theorem units_ofNat_mono {m n : Nat} (h : m ≤ n) : (ofNat m).units ≤ (ofNat n).units := by
  have hle := magnitudeBits_le (n * unitsPerOne) 1
  rw [infinityBits_eq] at hle
  apply units_mono
  · rw [ofNat, ofNat, toNat_bits_ofUnits, toNat_bits_ofUnits]
    exact magnitudeBits_mono (Nat.mul_le_mul_right _ h) 1
  · rw [ofNat, toNat_bits_ofUnits]
    omega

/-- **A product of lesser factors is finite** if one of greater factors is. -/
theorem isFinite_mulMagnitude_of_le {x y x' y' : Binary64} (hx : x.units ≤ x'.units)
    (hy : y.units ≤ y'.units) (h : (mulMagnitude x' y').isFinite = true) :
    (mulMagnitude x y).isFinite = true := by
  rw [mulMagnitude, isFinite_ofUnits] at *
  exact Nat.lt_of_le_of_lt (magnitudeBits_mono (Nat.mul_le_mul hx hy) _) h

end SqlConsole.Binary64
