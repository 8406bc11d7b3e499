import Mathlib.Algebra.Group.Nat.Defs
import SqlConsole.Proofs.Storage.Literal

/-!
# Rows of digits

A row of digits denotes a number (`Decimal.Denotes`), and rows of one length denote different
numbers (`Decimal.Denotes.unique`). So a number filled up with zeros to a width is the only row of
that width that denotes it, and the only longer one without a zero in front
(`Decimal.Denotes.eq_padded`).
-/

namespace SqlConsole.Decimal

/-- Digits that denote a number. -/
structure Denotes (digits : List Char) (n : Nat) : Prop where
  digit : ∀ c ∈ digits, c.isDigit = true
  value : toNat digits = n

/-! ## The number of a row -/

theorem toNat_eq (cs : List Char) : toNat cs = Nat.ofDigitChars 10 cs 0 :=
  Nat.ofDigitChars_eq_foldl.symm

theorem toNat_concat (cs : List Char) (c : Char) :
    toNat (cs ++ [c]) = 10 * toNat cs + (c.toNat - 48) := by
  rw [toNat, List.foldl_append]
  rfl

theorem toNat_cons (c : Char) (cs : List Char) :
    toNat (c :: cs) = (c.toNat - 48) * 10 ^ cs.length + toNat cs := by
  induction cs using List.reverseRecOn with
  | nil => simp [toNat]
  | append_singleton cs d ih =>
    rw [← List.cons_append, toNat_concat, toNat_concat, ih, List.length_append]
    simp only [List.length_singleton, Nat.pow_succ, Nat.mul_add]
    rw [← Nat.mul_assoc, Nat.mul_comm 10, Nat.mul_assoc, Nat.mul_comm 10, Nat.add_assoc]

theorem digit_bounds {c : Char} (h : c.isDigit = true) : 48 ≤ c.toNat ∧ c.toNat ≤ 57 := by
  simp only [Char.isDigit, Bool.and_eq_true, decide_eq_true_eq] at h
  exact ⟨h.1, h.2⟩

theorem toNat_lt {digits : List Char} (h : ∀ c ∈ digits, c.isDigit = true) :
    toNat digits < 10 ^ digits.length := by
  induction digits with
  | nil => exact Nat.one_pos
  | cons c cs ih =>
    obtain ⟨hc, hcs⟩ := List.forall_mem_cons.mp h
    obtain ⟨-, hnine⟩ := digit_bounds hc
    have hfirst : (c.toNat - 48) * 10 ^ cs.length ≤ 9 * 10 ^ cs.length :=
      Nat.mul_le_mul_right _ (by omega)
    have hrest := ih hcs
    rw [toNat_cons, List.length_cons, Nat.pow_succ]
    omega

/-- A row without a zero in front denotes a number of as many digits. -/
theorem le_toNat {c : Char} (hc : c.isDigit = true) (hzero : c ≠ '0') (cs : List Char) :
    10 ^ cs.length ≤ toNat (c :: cs) := by
  obtain ⟨hlow, -⟩ := digit_bounds hc
  have hne : c.toNat ≠ 48 := fun h => hzero (Char.toNat_inj.mp h)
  have hfirst : 1 * 10 ^ cs.length ≤ (c.toNat - 48) * 10 ^ cs.length :=
    Nat.mul_le_mul_right _ (by omega)
  rw [toNat_cons]
  omega

/-- **Rows of one length that denote the same number are the same.** -/
theorem Denotes.unique {xs ys : List Char} {n : Nat} (hx : Denotes xs n) (hy : Denotes ys n)
    (hlength : xs.length = ys.length) : xs = ys := by
  induction xs generalizing ys n with
  | nil => exact (List.length_eq_zero_iff.mp hlength.symm).symm
  | cons c cs ih =>
    obtain ⟨d, ds, rfl⟩ : ∃ d ds, ys = d :: ds := by
      cases ys with
      | nil => cases hlength
      | cons d ds => exact ⟨d, ds, rfl⟩
    obtain ⟨hc, hcs⟩ := List.forall_mem_cons.mp hx.digit
    obtain ⟨hd, hds⟩ := List.forall_mem_cons.mp hy.digit
    have hlength' : cs.length = ds.length := Nat.succ.inj hlength
    -- The first digits are the quotients by a power of ten, and the others the remainders.
    have hvalue : (c.toNat - 48) * 10 ^ ds.length + toNat cs =
        (d.toNat - 48) * 10 ^ ds.length + toNat ds := by
      rw [← toNat_cons, ← hlength', ← toNat_cons, hx.value, hy.value]
    have hquotient {q r : Nat} (hr : r < 10 ^ ds.length) :
        (q * 10 ^ ds.length + r) / 10 ^ ds.length = q := by
      rw [Nat.mul_comm, Nat.mul_add_div (Nat.pow_pos (by decide)), Nat.div_eq_of_lt hr,
        Nat.add_zero]
    have hcs' : toNat cs < 10 ^ ds.length := hlength' ▸ toNat_lt hcs
    have hfirst : c.toNat - 48 = d.toNat - 48 := calc
      c.toNat - 48 = ((c.toNat - 48) * 10 ^ ds.length + toNat cs) / 10 ^ ds.length :=
        (hquotient hcs').symm
      _ = ((d.toNat - 48) * 10 ^ ds.length + toNat ds) / 10 ^ ds.length := by rw [hvalue]
      _ = d.toNat - 48 := hquotient (toNat_lt hds)
    have hrest : toNat cs = toNat ds := by
      rw [hfirst] at hvalue
      exact Nat.add_left_cancel hvalue
    have hbounds := digit_bounds hc
    have hbounds' := digit_bounds hd
    have hcd : c = d := Char.toNat_inj.mp (by omega)
    rw [hcd, ih ⟨hcs, hrest⟩ ⟨hds, rfl⟩ hlength']

/-! ## Numbers filled up with zeros -/

theorem denotes_ofNat (n : Nat) : Denotes (ofNat n) n :=
  ⟨fun _ hc => isDigit_of_mem hc, toNat_ofNat n⟩

theorem denotes_padded (width n : Nat) : Denotes (padded width n) n := by
  refine ⟨fun c hc => ?_, ?_⟩
  · rcases List.mem_append.mp hc with hc | hc
    · rw [List.eq_of_mem_replicate hc]
      rfl
    · exact isDigit_of_mem hc
  · rw [padded, toNat_eq, Nat.ofDigitChars_append, Nat.ofDigitChars_replicate_zero,
      Nat.mul_zero, ← toNat_eq, toNat_ofNat]

theorem length_padded (width n : Nat) :
    (padded width n).length = max width (ofNat n).length := by
  rw [padded, List.length_append, List.length_replicate]
  omega

theorem length_ofNat_le_iff {n k : Nat} (hk : 0 < k) : (ofNat n).length ≤ k ↔ n < 10 ^ k :=
  Nat.length_toDigits_le_iff (by decide) hk

theorem length_padded_of_lt {width n : Nat} (hwidth : 0 < width) (h : n < 10 ^ width) :
    (padded width n).length = width := by
  rw [length_padded, Nat.max_eq_left ((length_ofNat_le_iff hwidth).mpr h)]

/-- A number that needs more digits than the width has no zero in front. -/
theorem head?_padded {width n : Nat} (hwidth : 0 < width) (h : width < (padded width n).length) :
    (padded width n).head? ≠ some '0' := by
  intro hzero
  obtain ⟨rest, hrest⟩ := List.head?_eq_some_iff.mp hzero
  have hlength : (ofNat n).length = rest.length + 1 := by
    rw [length_padded] at h
    rw [← List.length_cons (a := '0'), ← hrest, length_padded]
    omega
  have hdigits := denotes_padded width n
  rw [hrest] at hdigits
  have hvalue : toNat rest = n := by
    rw [← hdigits.value, toNat_cons]
    simp
  have hlt : n < 10 ^ rest.length :=
    hvalue ▸ toNat_lt fun c hc => hdigits.digit c (List.mem_cons_of_mem _ hc)
  have hfew : (ofNat n).length ≤ rest.length := by
    rw [hrest, List.length_cons] at h
    exact (length_ofNat_le_iff (by omega)).mpr hlt
  omega

/-- **A number filled up with zeros is written in one way only**: with as many digits as its width,
or with more and none of them a zero in front. -/
theorem Denotes.eq_padded {width n : Nat} {digits : List Char} (h : Denotes digits n)
    (hwidth : 0 < width)
    (hlength : digits.length = width ∨ width < digits.length ∧ digits.head? ≠ some '0') :
    digits = padded width n := by
  refine h.unique (denotes_padded width n) ?_
  have hlt : n < 10 ^ digits.length := h.value ▸ toNat_lt h.digit
  rcases hlength with rfl | ⟨hlong, hzero⟩
  · exact (length_padded_of_lt hwidth hlt).symm
  · cases digits with
    | nil => cases hlong
    | cons c cs =>
      have hge : 10 ^ cs.length ≤ n :=
        h.value ▸ le_toNat (h.digit c List.mem_cons_self) (fun hc => hzero (hc ▸ rfl)) cs
      have hlow : cs.length < (ofNat n).length := by
        rw [← Nat.not_le, length_ofNat_le_iff (by rw [List.length_cons] at hlong; omega)]
        exact Nat.not_lt.mpr hge
      have hhigh : (ofNat n).length ≤ cs.length + 1 :=
        (length_ofNat_le_iff (Nat.succ_pos _)).mpr hlt
      rw [length_padded, List.length_cons] at *
      omega

end SqlConsole.Decimal
