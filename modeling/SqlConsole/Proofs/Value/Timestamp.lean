import SqlConsole.Proofs.Number.Digits
import SqlConsole.Value.Form

/-!
# Written timestamps

What a written timestamp looks like is said field by field (`Timestamp.Renders`): two digits for
each field but the year, which has four, or a sign and at least four where four do not hold it. It
is the text that the timestamp is written as and no other (`Timestamp.renders_iff`).

The reader takes more texts than these. It reads every written timestamp back, field by field
(`Timestamp.read?_text`), and what it makes of any other text is written differently. So the texts
that are accepted are those of `Timestamp.Renders` (`Timestamp.parse?_canonical`).
-/

namespace SqlConsole.Timestamp

open Decimal

/-! ## The written form -/

/-- Digits that denote the magnitude of a year behind a sign: four, or more without a zero in
front. -/
structure LongYear (year : Int) (digits : List Char) : Prop where
  denotes : Denotes digits year.natAbs
  length : 4 ≤ digits.length
  no_zero : 4 < digits.length → digits.head? ≠ some '0'

/-- A written year. -/
inductive RendersYear : Int → List Char → Prop
  | four {year digits} (hyear : 0 ≤ year ∧ year ≤ 9999) (hlength : digits.length = 4)
      (h : Denotes digits year.natAbs) : RendersYear year digits
  | before {year digits} (hyear : year < 0) (h : LongYear year digits) :
      RendersYear year ('-' :: digits)
  | beyond {year digits} (hyear : 9999 < year) (h : LongYear year digits) :
      RendersYear year ('+' :: digits)

/-- A written field other than the year. -/
structure RendersField (n : Nat) (digits : List Char) : Prop where
  denotes : Denotes digits n
  length : digits.length = 2

/-- A timestamp written as `YYYY-MM-DD HH:MM:SS`. -/
inductive Renders (t : Timestamp) : List Char → Prop
  | mk {year month day hour minute second : List Char} (hyear : RendersYear t.year year)
      (hmonth : RendersField t.month month) (hday : RendersField t.day day)
      (hhour : RendersField t.hour hour) (hminute : RendersField t.minute minute)
      (hsecond : RendersField t.second second) :
      Renders t (year ++ '-' :: month ++ '-' :: day ++ ' ' :: hour ++ ':' :: minute ++
        ':' :: second)

theorem LongYear.eq_padded {year : Int} {digits : List Char} (h : LongYear year digits) :
    digits = padded 4 year.natAbs := by
  refine h.denotes.eq_padded (by decide) ?_
  rcases Nat.lt_or_eq_of_le h.length with hlong | hfour
  · exact Or.inr ⟨hlong, h.no_zero hlong⟩
  · exact Or.inl hfour.symm

theorem longYear_padded (year : Int) : LongYear year (padded 4 year.natAbs) := by
  refine ⟨denotes_padded 4 _, ?_, head?_padded (by decide)⟩
  rw [length_padded]
  exact Nat.le_max_left _ _

theorem rendersYear_iff {year : Int} {cs : List Char} :
    RendersYear year cs ↔ cs = yearText year := by
  constructor
  · intro h
    cases h with
    | four hyear hlength h =>
      rw [yearText, if_pos hyear, ← h.eq_padded (by decide) (Or.inl hlength)]
    | before hyear h =>
      rw [yearText, if_neg (by omega), if_pos hyear, ← h.eq_padded]
    | beyond hyear h =>
      rw [yearText, if_neg (by omega), if_neg (by omega), ← h.eq_padded]
  · rintro rfl
    rw [yearText]
    split
    case isTrue hyear =>
      have hlength : (padded 4 year.natAbs).length = 4 :=
        length_padded_of_lt (by decide) (by omega)
      exact .four hyear hlength (denotes_padded 4 _)
    case isFalse hyear =>
      split
      case isTrue hneg => exact .before hneg (longYear_padded year)
      case isFalse hneg => exact .beyond (by omega) (longYear_padded year)

theorem rendersField_iff {n : Nat} (hn : n < 100) {cs : List Char} :
    RendersField n cs ↔ cs = padded 2 n := by
  constructor
  · intro h
    exact h.denotes.eq_padded (by decide) (Or.inl h.length)
  · rintro rfl
    exact ⟨denotes_padded 2 n, length_padded_of_lt (by decide) hn⟩

theorem daysInMonth_le (year : Int) (month : Nat) : daysInMonth year month ≤ 31 := by
  unfold daysInMonth
  split_ifs <;> decide

/-- All fields but the year have two digits at most. -/
theorem fields_lt (t : Timestamp) :
    t.month < 100 ∧ t.day < 100 ∧ t.hour < 100 ∧ t.minute < 100 ∧ t.second < 100 := by
  obtain ⟨-, hmonth, hday, hhour, hminute, hsecond⟩ := t.valid
  have hdays := daysInMonth_le t.year t.month
  omega

/-- **A timestamp is written as its text** and as nothing else. -/
theorem renders_iff (t : Timestamp) (cs : List Char) : Renders t cs ↔ cs = t.text := by
  obtain ⟨hmonth, hday, hhour, hminute, hsecond⟩ := t.fields_lt
  constructor
  · rintro ⟨hy, hm, hd, hh, hi, hs⟩
    rw [rendersYear_iff.mp hy, (rendersField_iff hmonth).mp hm, (rendersField_iff hday).mp hd,
      (rendersField_iff hhour).mp hh, (rendersField_iff hminute).mp hi,
      (rendersField_iff hsecond).mp hs, text]
  · rintro rfl
    exact .mk (rendersYear_iff.mpr rfl) ((rendersField_iff hmonth).mpr rfl)
      ((rendersField_iff hday).mpr rfl) ((rendersField_iff hhour).mpr rfl)
      ((rendersField_iff hminute).mpr rfl) ((rendersField_iff hsecond).mpr rfl)

/-! ## Reading a written timestamp -/

/-- Digits are read up to a character that is none, or up to the width. -/
theorem digits?_append {width : Nat} {digits rest : List Char} (hne : digits ≠ [])
    (hdigits : ∀ c ∈ digits, c.isDigit = true) (hwidth : digits.length ≤ width)
    (hrest : digits.length = width ∨ ∀ c ∈ rest.head?, c.isDigit = false) :
    digits? width (digits ++ rest) = some (toNat digits, rest) := by
  have hbehind : ∀ c ∈ (rest.take (width - digits.length)).head?, c.isDigit = false := by
    intro c hc
    rcases hrest with hfull | hrest
    · rw [hfull, Nat.sub_self] at hc
      cases hc
    · rw [List.head?_take] at hc
      split at hc
      · cases hc
      · exact hrest c hc
  obtain ⟨htake, -⟩ := takeWhile_dropWhile_append hdigits hbehind
  have htaken : ((digits ++ rest).take width).takeWhile Char.isDigit = digits := by
    rw [List.take_append, List.take_of_length_le hwidth, htake]
  have hfound : digits.isEmpty = false := by simpa using hne
  simp only [digits?, htaken, hfound, Bool.false_eq_true, if_false, List.drop_left]

theorem dropBlanks_eq {cs : List Char} (h : ∀ c ∈ cs.head?, Text.isBlank c = false) :
    cs.dropWhile Text.isBlank = cs := by
  cases cs with
  | nil => rfl
  | cons c cs => simp [h c rfl]

theorem not_isBlank_of_isDigit {c : Char} (h : c.isDigit = true) : Text.isBlank c = false := by
  obtain ⟨hlow, hhigh⟩ := digit_bounds h
  simp [Text.isBlank]
  omega

theorem padded_ne_nil (width n : Nat) : padded width n ≠ [] :=
  List.append_ne_nil_of_right_ne_nil _ (ofNat_ne_nil n)

/-- A number filled up with zeros begins with a digit. -/
theorem isDigit_head?_padded (width n : Nat) (rest : List Char) :
    ∀ c ∈ (padded width n ++ rest).head?, c.isDigit = true := by
  intro c hc
  obtain ⟨d, ds, hds⟩ := List.exists_cons_of_ne_nil (padded_ne_nil width n)
  rw [hds] at hc
  cases hc
  exact (denotes_padded width n).digit c (hds ▸ List.mem_cons_self)

/-- A field of two digits is read whatever stands behind it. -/
theorem number?_padded {n : Nat} (hn : n < 100) (rest : List Char) :
    number? (padded 2 n ++ rest) = some (n, rest) := by
  have hlength : (padded 2 n).length = 2 := length_padded_of_lt (by decide) hn
  have hfirst : ∀ c ∈ (padded 2 n ++ rest).head?, Text.isBlank c = false :=
    fun c hc => not_isBlank_of_isDigit (isDigit_head?_padded 2 n rest c hc)
  rw [number?, dropBlanks_eq hfirst,
    digits?_append (padded_ne_nil 2 n) (denotes_padded 2 n).digit (Nat.le_of_eq hlength)
      (Or.inl hlength), (denotes_padded 2 n).value]

/-- A year that begins with a digit has no sign. -/
theorem year?_of_isDigit {cs : List Char} (h : ∀ c ∈ cs.head?, c.isDigit = true) :
    year? cs = (digits? 4 cs).map fun (n, rest) => ((n : Int), rest) := by
  rw [year?, dropBlanks_eq fun c hc => not_isBlank_of_isDigit (h c hc)]
  split
  · exact absurd (h '-' rfl) (by decide)
  · exact absurd (h '+' rfl) (by decide)
  · rfl

/-- **A written year is read** up to a character that is no digit. -/
theorem year?_yearText (year : Int) {rest : List Char}
    (hrest : ∀ c ∈ rest.head?, c.isDigit = false) :
    year? (yearText year ++ rest) = some (year, rest) := by
  have hdigits := denotes_padded 4 year.natAbs
  have hne := padded_ne_nil 4 year.natAbs
  rw [yearText]
  split
  case isTrue hyear =>
    have hlength : (padded 4 year.natAbs).length = 4 := length_padded_of_lt (by decide) (by omega)
    have hvalue : (year.natAbs : Int) = year := by omega
    rw [year?_of_isDigit (isDigit_head?_padded 4 year.natAbs rest),
      digits?_append hne hdigits.digit (Nat.le_of_eq hlength) (Or.inl hlength), hdigits.value]
    simp only [Option.map_some, hvalue]
  case isFalse hyear =>
    have hlength : (padded 4 year.natAbs).length ≤ (padded 4 year.natAbs ++ rest).length := by
      rw [List.length_append]
      exact Nat.le_add_right _ _
    have hread := digits?_append hne hdigits.digit hlength (Or.inr hrest)
    rw [hdigits.value] at hread
    split
    case isTrue hneg =>
      have hvalue : -(year.natAbs : Int) = year := by omega
      have hsign : ∀ c ∈ ('-' :: (padded 4 year.natAbs ++ rest)).head?,
          Text.isBlank c = false := by
        rintro c ⟨⟩
        rfl
      simp only [List.cons_append, year?, dropBlanks_eq hsign, hread, Option.map_some, hvalue]
    case isFalse hneg =>
      have hvalue : (year.natAbs : Int) = year := by omega
      have hsign : ∀ c ∈ ('+' :: (padded 4 year.natAbs ++ rest)).head?,
          Text.isBlank c = false := by
        rintro c ⟨⟩
        rfl
      simp only [List.cons_append, year?, dropBlanks_eq hsign, hread, Option.map_some, hvalue]

theorem behind?_cons (mark : Char) (rest : List Char) : behind? mark (mark :: rest) = some rest :=
  if_pos rfl

/-- A blank in front of a field is passed over. -/
theorem number?_blank (cs : List Char) : number? (' ' :: cs) = number? cs := rfl

theorem ofFields?_self (t : Timestamp) :
    ofFields? t.year t.month t.day t.hour t.minute t.second = some t :=
  dif_pos t.valid

/-- **A written timestamp is read back.** -/
theorem read?_text (t : Timestamp) : read? t.text = some t := by
  obtain ⟨hmonth, hday, hhour, hminute, hsecond⟩ := t.fields_lt
  have hyear (rest : List Char) :
      year? (yearText t.year ++ '-' :: rest) = some (t.year, '-' :: rest) := by
    refine year?_yearText t.year ?_
    rintro c ⟨⟩
    rfl
  have hlast := number?_padded hsecond []
  rw [List.append_nil] at hlast
  simp only [read?, text, List.append_assoc, List.cons_append, hyear, behind?_cons,
    number?_padded hmonth, number?_padded hday, number?_blank, number?_padded hhour,
    number?_padded hminute, hlast, Option.bind_eq_bind, Option.bind_some, List.isEmpty_nil,
    if_true, ofFields?_self]

/-! ## Accepted texts -/

theorem parse?_eq_some_iff {cs : List Char} {t : Timestamp} : parse? cs = some t ↔ cs = t.text := by
  constructor
  · intro h
    exact (text_of_parse? h).symm
  · rintro rfl
    rw [parse?, read?_text]
    simp

/-- **The texts that are accepted are those that are written.** A text is taken for a timestamp if
and only if it renders it field by field. The timestamp is then shown as that text; what a timestamp
is shown as is taken for it; and no two texts are taken for the same one. -/
theorem parse?_canonical (cs : List Char) (t : Timestamp) :
    (parse? cs = some t ↔ Renders t cs) ∧
      (parse? cs = some t → (Value.timestamp t).plain = cs) ∧
      parse? (Value.timestamp t).plain = some t ∧
      ∀ cs', parse? cs = some t → parse? cs' = some t → cs = cs' := by
  refine ⟨?_, text_of_parse?, parse?_eq_some_iff.mpr rfl, fun cs' h h' => ?_⟩
  · rw [parse?_eq_some_iff, renders_iff]
  · rw [parse?_eq_some_iff.mp h, parse?_eq_some_iff.mp h']

/-- The leap day of a year before the first, and a leap second in it. -/
theorem parse?_canonical_leapDay :
    let cs := "-0004-02-29 23:59:60".toList
    let t : Timestamp := ⟨-4, 2, 29, 23, 59, 60, by decide⟩
    parse? cs = some t ∧ Renders t cs ∧ (Value.timestamp t).plain = cs ∧
      ∀ cs', parse? cs' = some t → cs = cs' :=
  have hread : parse? "-0004-02-29 23:59:60".toList =
      some ⟨-4, 2, 29, 23, 59, 60, by decide⟩ := by decide
  have h := parse?_canonical "-0004-02-29 23:59:60".toList ⟨-4, 2, 29, 23, 59, 60, by decide⟩
  ⟨hread, h.1.mp hread, h.2.1 hread, fun cs' => h.2.2.2 cs' hread⟩

/-- What the reader takes besides is refused: no zero in front of the month, and a sign that the
year does not need. -/
example : (["2024-2-29 00:00:00", "+2024-02-29 00:00:00"].map fun s =>
    ((read? s.toList).isSome, (parse? s.toList).isSome)) = [(true, false), (true, false)] := by
  decide

end SqlConsole.Timestamp
