import Mathlib.Algebra.Group.Int.Defs
import SqlConsole.Json.Numeral
import SqlConsole.Proofs.Number.Digits
import SqlConsole.Proofs.Number.Rounding

/-!
# Whole numbers in JSON documents

The reader takes up digits as long as they fit 64 bits and counts the others (`Numeral.Absorbed`).
All are taken up exactly if the number fits (`Numeral.absorb_of_lt`); else at least nineteen are,
which is why the number of digits left tells how large it is.

An integer of 64 bits is read as it is (`Numeral.value?_ofInt`), and any other one as a double if its
magnitude is below `Numeral.range` (`Numeral.value?_ofInt_of_not`). The double is the product of the
number that was taken up and a power of ten. Since rounding keeps the order, four products tell for
all of them whether they are too large (`Numeral.fits_iff`).
-/

namespace SqlConsole.Json.Numeral

open Decimal

/-! ## Taking up digits -/

/-- A number and the digits left, out of a number and digits behind it. -/
structure Absorbed (n : Nat) (ds : List Char) (m : Nat) (left : List Char) : Prop where
  value : m * 10 ^ left.length + toNat left = n * 10 ^ ds.length + toNat ds
  fits : m < 2 ^ 64
  suffix : left <:+ ds
  /-- The next digit does not fit. -/
  full : ∀ c ∈ left.head?, 2 ^ 64 ≤ 10 * m + (c.toNat - 48)

theorem absorbed (ds : List Char) {n : Nat} (hn : n < 2 ^ 64) :
    Absorbed n ds (absorb n ds).1 (absorb n ds).2 := by
  induction ds generalizing n with
  | nil => exact ⟨rfl, hn, List.suffix_refl [], by rintro c ⟨⟩⟩
  | cons c cs ih =>
    rw [absorb]
    split
    case isTrue hfits =>
      obtain ⟨hvalue, hlt, hsuffix, hfull⟩ := ih hfits
      refine ⟨?_, hlt, hsuffix.trans (List.suffix_cons c cs), hfull⟩
      rw [hvalue, toNat_cons, List.length_cons, Nat.add_mul, Nat.pow_succ', Nat.mul_comm 10 n,
        Nat.mul_assoc, Nat.add_assoc]
    case isFalse hfull =>
      refine ⟨rfl, hn, List.suffix_refl _, ?_⟩
      rintro d ⟨⟩
      exact Nat.le_of_not_lt hfull

section Absorbed

variable {ds left : List Char} {m : Nat}

theorem Absorbed.toNat_eq (h : Absorbed 0 ds m left) :
    toNat ds = m * 10 ^ left.length + toNat left := by
  rw [h.value, Nat.zero_mul, Nat.zero_add]

/-- The digits left tell no more than how large the number is. -/
theorem Absorbed.bounds (h : Absorbed 0 ds m left) (hds : ∀ c ∈ ds, c.isDigit = true) :
    m * 10 ^ left.length ≤ toNat ds ∧ toNat ds < (m + 1) * 10 ^ left.length := by
  have hleft : toNat left < 10 ^ left.length := toNat_lt fun c hc => hds c (h.suffix.mem hc)
  rw [h.toNat_eq, Nat.add_mul, Nat.one_mul]
  omega

/-- Where digits are left, those taken up make a large number. -/
theorem Absorbed.le_of_ne_nil (h : Absorbed 0 ds m left) (hds : ∀ c ∈ ds, c.isDigit = true)
    (hleft : left ≠ []) : 1844674407370955161 ≤ m ∧ 2 ^ 64 ≤ toNat ds := by
  obtain ⟨c, cs, rfl⟩ := List.exists_cons_of_ne_nil hleft
  have hfull := h.full c rfl
  obtain ⟨hlow, hhigh⟩ := digit_bounds (hds c (h.suffix.mem List.mem_cons_self))
  refine ⟨by omega, ?_⟩
  have hone : 1 ≤ 10 ^ cs.length := Nat.pow_pos (by decide)
  calc
    2 ^ 64 ≤ (10 * m + (c.toNat - 48)) * 1 := by omega
    _ ≤ (10 * m + (c.toNat - 48)) * 10 ^ cs.length := Nat.mul_le_mul_left _ hone
    _ ≤ m * 10 ^ (c :: cs).length + toNat (c :: cs) := by
      rw [List.length_cons, Nat.pow_succ', ← Nat.mul_assoc, Nat.mul_comm m 10, Nat.add_mul,
        toNat_cons]
      omega
    _ = toNat ds := h.toNat_eq.symm

end Absorbed

/-- **A number of 64 bits is taken up as a whole.** -/
theorem absorb_of_lt {ds : List Char} (hds : ∀ c ∈ ds, c.isDigit = true)
    (hlt : toNat ds < 2 ^ 64) : absorb 0 ds = (toNat ds, []) := by
  have h := absorbed ds (n := 0) (by decide)
  have hleft : (absorb 0 ds).2 = [] := by
    by_contra hne
    exact absurd hlt (Nat.not_lt.mpr (h.le_of_ne_nil hds hne).2)
  have hvalue := h.toNat_eq
  rw [hleft, List.length_nil, Nat.pow_zero, Nat.mul_one] at hvalue
  exact Prod.ext hvalue.symm hleft

/-! ## Doubles -/

/-- Whether `n · 10 ^ e` is read as a double. -/
def Fits (n e : Nat) : Prop := (scaleUp? (.ofNat n) e).isSome = true

instance (n e : Nat) : Decidable (Fits n e) := inferInstanceAs (Decidable (_ = _))

/-- The least whole number that is refused as too large. It is a little below the greatest double:
the factors are rounded before they are multiplied. -/
def range : Nat := 17976931348623156225 * Nat.pow 10 289

example : range < 2 ^ 1024 - 2 ^ 971 ∧ 2 ^ 1024 < range + range / 2 ^ 52 := by decide +kernel

theorem isSome_filter_isFinite (x : Binary64) :
    ((some x).filter (·.isFinite)).isSome = x.isFinite := by
  cases h : x.isFinite <;> simp [Option.filter, h]

theorem fits_iff_of_le {n e : Nat} (he : e ≤ maxPower) :
    Fits n e ↔ ((Binary64.ofNat n).mulMagnitude (.ofNat (Nat.pow 10 e))).isFinite = true := by
  rw [Fits, scaleUp?, if_pos he, isSome_filter_isFinite]

theorem units_ofNat_pos {n : Nat} (hn : 0 < n) : 0 < (Binary64.ofNat n).units := by
  have hone : 0 < (Binary64.ofNat 1).units := by decide +kernel
  have hpos : 1 ≤ n := hn
  exact Nat.lt_of_lt_of_le hone (Binary64.units_ofNat_mono hpos)

theorem le_maxPower_of_fits {n e : Nat} (hn : 0 < n) (h : Fits n e) : e ≤ maxPower := by
  by_contra he
  rw [Fits, scaleUp?, if_neg he, if_neg (Nat.ne_of_gt (units_ofNat_pos hn))] at h
  cases h

/-- **What is less fits too.** -/
theorem Fits.mono {m n d e : Nat} (h : Fits n e) (hn : 0 < n) (hm : m ≤ n) (hd : d ≤ e) :
    Fits m d := by
  have he := le_maxPower_of_fits hn h
  have hpow : Nat.pow 10 d ≤ Nat.pow 10 e := Nat.pow_le_pow_right (by decide) hd
  rw [fits_iff_of_le he] at h
  rw [fits_iff_of_le (Nat.le_trans hd he)]
  exact Binary64.isFinite_mulMagnitude_of_le (Binary64.units_ofNat_mono hm)
    (Binary64.units_ofNat_mono hpow) h

/-- **The range of whole numbers.** The number `k` is made of the digits of `m` and `e` others; `m`
is large if there are others. -/
theorem fits_iff {k m e : Nat} (hlow : m * 10 ^ e ≤ k) (hhigh : k < (m + 1) * 10 ^ e)
    (hfits : m < 2 ^ 64) (hfull : e = 0 ∨ 1844674407370955161 ≤ m) : Fits m e ↔ k < range := by
  have hpow {d d' : Nat} (h : d ≤ d') : 10 ^ d ≤ 10 ^ d' := Nat.pow_le_pow_right (by decide) h
  rcases Nat.lt_trichotomy e 289 with hfew | rfl | hmany
  · -- The product is far below the range.
    have hsmall : Fits (2 ^ 64 - 1) 288 := by decide +kernel
    have hk : k < range := calc
      k < (m + 1) * 10 ^ e := hhigh
      _ ≤ 2 ^ 64 * 10 ^ 288 := Nat.mul_le_mul hfits (hpow (by omega))
      _ < range := by decide +kernel
    exact iff_of_true (hsmall.mono (by decide) (by omega) (by omega)) hk
  · have hrange : range = 17976931348623156225 * 10 ^ 289 := by decide +kernel
    have htop : Fits 17976931348623156224 289 := by decide +kernel
    have hnext : ¬ Fits 17976931348623156225 289 := by decide +kernel
    rw [hrange]
    generalize 10 ^ 289 = p at *
    by_cases hm : m < 17976931348623156225
    · have hk : k < 17976931348623156225 * p :=
        Nat.lt_of_lt_of_le hhigh (Nat.mul_le_mul_right _ hm)
      exact iff_of_true (htop.mono (by decide) (by omega) (Nat.le_refl _)) hk
    · have hk : 17976931348623156225 * p ≤ k :=
        Nat.le_trans (Nat.mul_le_mul_right _ (Nat.le_of_not_lt hm)) hlow
      have hnot : ¬ Fits m 289 := fun h => hnext (h.mono (by omega) (by omega) (Nat.le_refl _))
      exact iff_of_false hnot (Nat.not_lt.mpr hk)
  · have hlarge : ¬ Fits 1844674407370955161 290 := by decide +kernel
    have hbig : 1844674407370955161 ≤ m := by omega
    have hk : range ≤ k := calc
      range ≤ 1844674407370955161 * 10 ^ 290 := by decide +kernel
      _ ≤ m * 10 ^ e := Nat.mul_le_mul hbig (hpow hmany)
      _ ≤ k := hlow
    have hnot : ¬ Fits m e := fun h => hlarge (h.mono (by omega) hbig hmany)
    exact iff_of_false hnot (Nat.not_lt.mpr hk)

/-! ## Whole numbers -/

/-- An integer in decimal digits. -/
def ofInt (z : Int) : Numeral := ⟨z < 0, ofNat z.natAbs, [], none⟩

/-- **Integers of 64 bits are read as they are.** -/
theorem value?_ofInt {z : Int} (hlow : -2 ^ 63 ≤ z) (hhigh : z < 2 ^ 64) :
    (ofInt z).value? = some (.integer z) := by
  have hdigits := denotes_ofNat z.natAbs
  have hlt : toNat (ofNat z.natAbs) < 2 ^ 64 := by
    rw [hdigits.value]
    omega
  have habsorb := absorb_of_lt hdigits.digit hlt
  rw [hdigits.value] at habsorb
  have hpow : Nat.pow 2 63 = 2 ^ 63 := rfl
  have hkept : (!(decide (z < 0) && (z.natAbs == 0 || decide (2 ^ 63 < z.natAbs)))) = true := by
    simp
    omega
  have hvalue : (if z < 0 then -(z.natAbs : Int) else z.natAbs) = z := by
    split <;> omega
  simp only [value?, ofInt, habsorb, List.isEmpty_nil, Option.isNone_none, Bool.true_and, hpow,
    hkept, if_true, decide_eq_true_eq, hvalue]

/-- Other integers are doubles, if they are within range. -/
theorem value?_ofInt_float {z : Int} (h : z < -2 ^ 63 ∨ 2 ^ 64 ≤ z) :
    ∃ m e, (Fits m e ↔ z.natAbs < range) ∧
      (ofInt z).value? =
        (scaleUp? (.ofNat m) e).map fun x => .float (x.withSign (decide (z < 0))) := by
  have hdigits := denotes_ofNat z.natAbs
  have habsorbed := absorbed (ofNat z.natAbs) (n := 0) (by decide)
  obtain ⟨m, left, hpair⟩ : ∃ m left, absorb 0 (ofNat z.natAbs) = (m, left) := ⟨_, _, rfl⟩
  rw [hpair] at habsorbed
  obtain ⟨hlow, hhigh⟩ := habsorbed.bounds hdigits.digit
  have hlarge := habsorbed.le_of_ne_nil hdigits.digit
  rw [hdigits.value] at hlow hhigh hlarge
  refine ⟨m, left.length, fits_iff hlow hhigh habsorbed.fits ?_, ?_⟩
  · by_cases hleft : left = []
    · exact Or.inl (by rw [hleft, List.length_nil])
    · exact Or.inr (hlarge hleft).1
  · have hkept : (left.isEmpty &&
        !(decide (z < 0) && (m == 0 || decide (2 ^ 63 < m)))) = false := by
      cases left with
      | nil =>
        rw [List.length_nil, Nat.pow_zero, Nat.mul_one] at hlow hhigh
        have hfits := habsorbed.fits
        simp
        omega
      | cons c cs => rfl
    have hexponent : (left.length : Int) - (([] : List Char).length - ([] : List Char).length) =
        (left.length : Int) := by simp
    have hpow : Nat.pow 2 63 = 2 ^ 63 := rfl
    simp only [value?, ofInt, hpair, List.isEmpty_nil, Option.isNone_none, Bool.true_and, hpow,
      hkept, Bool.false_eq_true, if_false, absorb, magnitude?, scaled?, hexponent,
      Int.natCast_nonneg, if_true, Int.toNat_natCast]

/-- **What becomes of a whole number** that is no integer of 64 bits. -/
theorem value?_ofInt_of_not {z : Int} (h : z < -2 ^ 63 ∨ 2 ^ 64 ≤ z) :
    (∀ r, (ofInt z).value? = some r → ∃ x, r = .float x) ∧
      ((ofInt z).value?.isSome ↔ z.natAbs < range) := by
  obtain ⟨m, e, hfits, hvalue⟩ := value?_ofInt_float h
  rw [hvalue, ← hfits, Fits, Option.isSome_map]
  refine ⟨fun r hr => ?_, Iff.rfl⟩
  obtain ⟨x, -, rfl⟩ := Option.map_eq_some_iff.mp hr
  exact ⟨_, rfl⟩

/-- **Every integer that is read has 64 bits.** -/
theorem bounds_of_value? {a : Numeral} {i : Int} (h : a.value? = some (.integer i)) :
    -2 ^ 63 ≤ i ∧ i < 2 ^ 64 := by
  have hfits := (absorbed a.whole (n := 0) (by decide)).fits
  have hpow : Nat.pow 2 63 = 2 ^ 63 := rfl
  simp only [value?, hpow] at h
  split at h
  case isTrue hinteger =>
    cases h
    simp only [Bool.and_eq_true, Bool.not_eq_true', Bool.and_eq_false_iff, Bool.or_eq_false_iff,
      decide_eq_false_iff_not, Nat.not_lt] at hinteger
    rcases hinteger.2 with hpositive | ⟨-, hkept⟩
    · rw [hpositive]
      simp only [Bool.false_eq_true, if_false]
      omega
    · split <;> omega
  case isFalse =>
    obtain ⟨x, -, hx⟩ := Option.map_eq_some_iff.mp h
    cases hx

end SqlConsole.Json.Numeral
