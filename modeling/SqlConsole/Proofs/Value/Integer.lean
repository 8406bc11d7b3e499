import SqlConsole.Json.Parser
import SqlConsole.Proofs.Json.Numeral
import SqlConsole.Storage
import SqlConsole.Value.Form
import SqlConsole.Value.OfJson

/-!
# Integers as values

An integer comes in as the text of a JSON document, as a number of 64 bits with or without a sign,
or as a stored cell (`Value.Incoming`). Whichever it is, a value without a sign holds only what one
with a sign cannot hold (`Value.Canonical`), so that equal integers are equal values
(`Value.Canonical.unique`).

The document of an integer is its decimal digits (`Value.spelling`), which every form gives back
(`Value.write_of_integer?`). Beyond 64 bits it is read as a double, if it is read at all
(`Value.integers_canonical`).
-/

namespace SqlConsole.Value

open Json

/-- An integer in decimal digits, with a `-` in front of a negative one. -/
def spelling (z : Int) : String := String.ofList (Decimal.ofInt z)

/-! ## Documents -/

/-- A text that begins like a number is read as one. -/
theorem value?_number {c : Char} (hc : c.isDigit = true ∨ c = '-') (fuel : Nat) (cs : List Char) :
    Json.value? (fuel + 1) (c :: cs) =
      (numeral? (c :: cs)).map fun (a, rest) => (.number a, rest) := by
  have hne {d : Char} (hd : d.isDigit = false ∧ d ≠ '-') : c ≠ d := by
    rintro rfl
    rcases hc with hdigit | hminus
    · rw [hdigit] at hd
      exact Bool.noConfusion hd.1
    · exact hd.2 hminus
  have hspace : isSpace c = false := by
    have hfour : c ≠ ' ' ∧ c ≠ '\t' ∧ c ≠ '\n' ∧ c ≠ '\r' :=
      ⟨hne (by decide), hne (by decide), hne (by decide), hne (by decide)⟩
    simp [isSpace, hfour]
  have hopen : skipSpace (c :: cs) = c :: cs := by
    rw [skipSpace, List.dropWhile_cons, hspace]
    rfl
  rw [Json.value?, hopen]
  split
  case h_7 => rfl
  all_goals
    rename_i heq
    cases heq
    exact absurd rfl (hne (by decide))

/-- **The digits of an integer are read back**, up to the end of the text. -/
theorem numeral?_ofInt (z : Int) : numeral? (Decimal.ofInt z) = some (.ofInt z, []) := by
  have hdigits := (Decimal.denotes_ofNat z.natAbs).digit
  have htake : (Decimal.ofNat z.natAbs).takeWhile Char.isDigit = Decimal.ofNat z.natAbs :=
    List.takeWhile_eq_self_iff.mpr hdigits
  have hdrop : (Decimal.ofNat z.natAbs).dropWhile Char.isDigit = [] :=
    List.dropWhile_eq_nil_iff.mpr hdigits
  have hne := Decimal.ofNat_ne_nil z.natAbs
  have hzero : (Decimal.ofNat z.natAbs).head? = some '0' → (Decimal.ofNat z.natAbs).length ≤ 1 := by
    have hpadded : Decimal.padded 1 z.natAbs = Decimal.ofNat z.natAbs := by
      have hlength := List.length_pos_iff.mpr hne
      rw [Decimal.padded, Nat.sub_eq_zero_of_le hlength, List.replicate_zero, List.nil_append]
    rw [← hpadded, ← Nat.not_lt]
    exact fun h hlong => Decimal.head?_padded (by decide) hlong h
  rw [Decimal.ofInt]
  split
  case isTrue hneg =>
    simpa [numeral?, htake, hdrop, hne, Numeral.ofInt, hneg] using hzero
  case isFalse hneg =>
    rw [numeral?]
    · simpa [htake, hdrop, hne, Numeral.ofInt, hneg] using hzero
    · intro rest hrest
      exact absurd (hdigits '-' (hrest ▸ List.mem_cons_self)) (by decide)

theorem parse?_spelling (z : Int) : Json.parse? (spelling z) = some (.number (.ofInt z)) := by
  obtain ⟨c, cs, hcs, hc⟩ : ∃ c cs, Decimal.ofInt z = c :: cs ∧ (c.isDigit = true ∨ c = '-') := by
    rw [Decimal.ofInt]
    split
    · exact ⟨_, _, rfl, Or.inr rfl⟩
    · obtain ⟨c, cs, hcs⟩ := List.exists_cons_of_ne_nil (Decimal.ofNat_ne_nil z.natAbs)
      have hc := (Decimal.denotes_ofNat z.natAbs).digit c (hcs ▸ List.mem_cons_self)
      exact ⟨c, cs, hcs, Or.inl hc⟩
  have hread := numeral?_ofInt z
  rw [Json.parse?, spelling, String.toList_ofList, hcs, value?_number hc, ← hcs, hread]
  rfl

/-- The value of the document of an integer is that of its number. -/
theorem parseCell?_spelling (z : Int) :
    parseCell? (spelling z) = (Numeral.ofInt z).value?.map fun
      | .integer i => .ok (ofInteger i)
      | .float x => .ok (float x) := by
  have hsound : (Json.number (.ofInt z)).sound = (Numeral.ofInt z).value?.isSome := rfl
  rw [parseCell?, parse?_spelling, Option.filter, hsound]
  cases h : (Numeral.ofInt z).value? with
  | none => rfl
  | some number =>
    simp only [Option.isSome_some, if_true, Option.map_some, ofJson, h]
    cases number <;> rfl

/-! ## Equal integers -/

/-- The integer that a value is, if it is one. -/
def integer? : Value → Option Int
  | int n => some n.toInt
  | uint n => some n.toNat
  | _ => none

theorem cases_of_integer? {v : Value} {z : Int} (h : v.integer? = some z) :
    (∃ n : Int64, v = int n ∧ n.toInt = z) ∨ ∃ n : UInt64, v = uint n ∧ (n.toNat : Int) = z := by
  cases v <;> cases h
  case int.refl n => exact Or.inl ⟨n, rfl, rfl⟩
  case uint.refl n => exact Or.inr ⟨n, rfl, rfl⟩

/-- **An integer is written as it is spelled**, in every form. -/
theorem write_of_integer? {v : Value} {z : Int} (h : v.integer? = some z) (form : Form) :
    v.write form = spelling z := by
  rcases cases_of_integer? h with ⟨n, rfl, rfl⟩ | ⟨n, rfl, rfl⟩
  · cases form <;> rfl
  · have hdigits : Decimal.ofInt n.toNat = Decimal.ofNat n.toNat := by
      rw [Decimal.ofInt, if_neg (by omega), Int.natAbs_natCast]
    rw [spelling, hdigits]
    cases form <;> rfl

/-- A value without a sign holds only what one with a sign cannot hold. -/
def Canonical (v : Value) : Prop := ∀ n, v = uint n → 2 ^ 63 ≤ n.toNat

/-- **Canonical values of one integer are the same.** -/
theorem Canonical.unique {v w : Value} {z : Int} (hv : Canonical v) (hw : Canonical w)
    (h : v.integer? = some z) (h' : w.integer? = some z) : v = w := by
  rcases cases_of_integer? h with ⟨m, rfl, hm⟩ | ⟨m, rfl, hm⟩ <;>
    rcases cases_of_integer? h' with ⟨n, rfl, hn⟩ | ⟨n, rfl, hn⟩
  · rw [Int64.toInt_inj.mp (hm.trans hn.symm)]
  · have hlow := hw n rfl
    have hhigh := m.toInt_lt
    omega
  · have hlow := hv m rfl
    have hhigh := n.toInt_lt
    omega
  · have hmn : m.toNat = n.toNat := by omega
    rw [UInt64.toNat_inj.mp hmn]

theorem ofInteger_spec {z : Int} (hlow : -2 ^ 63 ≤ z) (hhigh : z < 2 ^ 64) :
    (ofInteger z).integer? = some z ∧ Canonical (ofInteger z) := by
  have hpow : ((Nat.pow 2 63 : Nat) : Int) = 2 ^ 63 := rfl
  rw [ofInteger, hpow]
  split
  case isTrue h =>
    refine ⟨congrArg some (Int64.toInt_ofInt_of_le hlow h), ?_⟩
    rintro n ⟨⟩
  case isFalse h =>
    have hn : (UInt64.ofNat z.toNat).toNat = z.toNat := by
      rw [UInt64.toNat_ofNat']
      omega
    refine ⟨congrArg some ?_, ?_⟩
    · omega
    · rintro n ⟨⟩
      omega

/-- A number without a sign becomes what its digits do. -/
theorem ofUInt64_eq (n : UInt64) : ofUInt64 n = ofInteger n.toNat := by
  have hpow : Nat.pow 2 63 = 2 ^ 63 := rfl
  rw [ofUInt64, ofInteger, hpow]
  split
  case isTrue h =>
    have hsigned : n.toInt64 = Int64.ofInt n.toNat := by
      rw [← Int64.toInt_inj, Int64.toInt_ofInt_of_le (by omega) (by omega)]
      exact BitVec.toInt_eq_toNat_of_lt (show 2 * n.toNat < 2 ^ 64 by omega)
    rw [if_pos (by omega), hsigned]
  case isFalse h =>
    rw [if_neg (by omega), Int.toNat_natCast, UInt64.ofNat_toNat]

/-! ## Where integers come from -/

/-- A value that came in, in one of the ways there are for integers. -/
inductive Incoming : Value → Prop
  | document {j : Json} {v : Value} (h : ofJson j = .ok v) : Incoming v
  | signed (n : Int64) : Incoming (int n)
  | unsigned (n : UInt64) : Incoming (ofUInt64 n)
  | stored (declared : Option String) (cell : StoredCell) : Incoming (cell.value declared)

/-- No document is read as a number without a sign that one with a sign would hold. -/
theorem canonical_of_ofJson {j : Json} {v : Value} (h : ofJson j = .ok v) : Canonical v := by
  rintro n rfl
  unfold ofJson at h
  split at h
  case h_3 a =>
    split at h
    case h_1 i hvalue =>
      obtain ⟨hlow, hhigh⟩ := Numeral.bounds_of_value? hvalue
      injection h with h
      exact (ofInteger_spec hlow hhigh).2 n h
    case h_2 => cases h
    case h_3 => cases h
  case h_7 =>
    split at h
    case h_1 =>
      split at h <;> cases h
    case h_2 => cases h
    case h_3 => cases h
  all_goals cases h

/-- A stored integer has a sign. -/
theorem canonical_of_stored (declared : Option String) (cell : StoredCell) :
    Canonical (cell.value declared) := by
  intro n h
  cases cell with
  | integer m =>
    rw [StoredCell.value] at h
    split at h <;> cases h
  | text bytes =>
    simp only [StoredCell.value] at h
    split at h
    · split at h <;> cases h
    · cases h
  | null => cases h
  | real x => cases h
  | blob bytes => cases h

theorem Incoming.canonical {v : Value} (h : Incoming v) : Canonical v := by
  cases h with
  | document h => exact canonical_of_ofJson h
  | signed n => rintro m ⟨⟩
  | unsigned n =>
    have hlt := n.toNat_lt
    rw [ofUInt64_eq]
    exact (ofInteger_spec (by omega) (by omega)).2
  | stored declared cell => exact canonical_of_stored declared cell

/-- The document of an integer of 64 bits. -/
theorem parseCell?_spelling_of_mem {z : Int} (hlow : -2 ^ 63 ≤ z) (hhigh : z < 2 ^ 64) :
    parseCell? (spelling z) = some (.ok (ofInteger z)) := by
  rw [parseCell?_spelling, Numeral.value?_ofInt hlow hhigh]
  rfl

/-- **Integers are exact and canonical.** The document of an integer that 64 bits hold is read as
that integer, with a sign where it fits one, and is written as the document; a larger one is a
double, or too large to be read. No document is read as a number without a sign that fits one with a
sign. A number without a sign becomes what its document does, and values that came in as the same
integer are the same. -/
theorem integers_canonical (z : Int) :
    (-2 ^ 63 ≤ z → z < 2 ^ 63 → ∃ n : Int64, n.toInt = z ∧
      parseCell? (spelling z) = some (.ok (int n)) ∧ ∀ form, (int n).write form = spelling z) ∧
    (2 ^ 63 ≤ z → z < 2 ^ 64 → ∃ n : UInt64, (n.toNat : Int) = z ∧
      parseCell? (spelling z) = some (.ok (uint n)) ∧ ∀ form, (uint n).write form = spelling z) ∧
    (z < -2 ^ 63 ∨ 2 ^ 64 ≤ z →
      (∀ r, parseCell? (spelling z) = some r → ∃ x, r = .ok (float x)) ∧
        ((parseCell? (spelling z)).isSome ↔ z.natAbs < Numeral.range)) ∧
    (∀ j n, ofJson j = .ok (uint n) → 2 ^ 63 ≤ n.toNat) ∧
    (∀ n : UInt64, parseCell? (spelling n.toNat) = some (.ok (ofUInt64 n))) ∧
    ∀ v w, Incoming v → Incoming w → v.integer? = some z → w.integer? = some z → v = w := by
  refine ⟨fun hlow hhigh => ?_, fun hlow hhigh => ?_, fun hout => ?_, fun j n h => ?_, fun n => ?_,
    fun v w hv hw => hv.canonical.unique hw.canonical⟩
  · have hread := parseCell?_spelling_of_mem hlow (by omega)
    obtain ⟨hinteger, hcanonical⟩ := ofInteger_spec hlow (by omega)
    rcases cases_of_integer? hinteger with ⟨n, hn, rfl⟩ | ⟨n, hn, rfl⟩
    · exact ⟨n, rfl, hn ▸ hread, write_of_integer? rfl⟩
    · have hlarge := hcanonical n hn
      omega
  · have hread := parseCell?_spelling_of_mem (by omega) hhigh
    obtain ⟨hinteger, -⟩ := ofInteger_spec (z := z) (by omega) hhigh
    rcases cases_of_integer? hinteger with ⟨n, hn, rfl⟩ | ⟨n, hn, rfl⟩
    · have hsmall := n.toInt_lt
      omega
    · exact ⟨n, rfl, hn ▸ hread, write_of_integer? rfl⟩
  · obtain ⟨hfloat, hrange⟩ := Numeral.value?_ofInt_of_not hout
    rw [parseCell?_spelling, Option.isSome_map]
    refine ⟨fun r hr => ?_, hrange⟩
    obtain ⟨number, hnumber, rfl⟩ := Option.map_eq_some_iff.mp hr
    obtain ⟨x, rfl⟩ := hfloat number hnumber
    exact ⟨x, rfl⟩
  · exact canonical_of_ofJson h n rfl
  · have hlt := n.toNat_lt
    rw [ofUInt64_eq]
    exact parseCell?_spelling_of_mem (by omega) (by omega)

/-- The last integer with a sign, the first one without, and one that is read as a double. -/
theorem integers_canonical_limits :
    (∃ n : Int64, n.toInt = 2 ^ 63 - 1 ∧
      parseCell? (spelling (2 ^ 63 - 1)) = some (.ok (int n)) ∧
      ∀ form, (int n).write form = spelling (2 ^ 63 - 1)) ∧
    (∃ n : UInt64, (n.toNat : Int) = 2 ^ 63 ∧ parseCell? (spelling (2 ^ 63)) = some (.ok (uint n)) ∧
      ∀ form, (uint n).write form = spelling (2 ^ 63)) ∧
    (∃ x, parseCell? (spelling (2 ^ 64)) = some (.ok (float x))) ∧
    ofUInt64 5 = int 5 := by
  refine ⟨(integers_canonical (2 ^ 63 - 1)).1 (by decide) (by decide),
    (integers_canonical (2 ^ 63)).2.1 (by decide) (by decide), ?_, ?_⟩
  · obtain ⟨hfloat, hrange⟩ := (integers_canonical (2 ^ 64)).2.2.1 (Or.inr (by decide))
    obtain ⟨r, hr⟩ := Option.isSome_iff_exists.mp (hrange.mpr (by decide +kernel))
    obtain ⟨x, rfl⟩ := hfloat r hr
    exact ⟨x, hr⟩
  · exact (integers_canonical 5).2.2.2.2.2 _ _ (.unsigned 5) (.signed 5) (by decide) (by decide)

end SqlConsole.Value
