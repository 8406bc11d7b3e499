import SqlConsole.Proofs.Dump.Insertion
import SqlConsole.Proofs.Text.Utf8
import SqlConsole.Storage

/-!
# Stored cells and their literals

A reader of literals as SQLite takes them (`StoredCell.ofLiteral?`): `NULL`, the two truth values,
decimal numbers with or without a sign, texts in quotes, and bytes in hexadecimal digits. It knows
nothing of declared types.

The declared type of a column makes a truth value of a 0 or 1, and a timestamp of a text. Either is
written so that the stored cell is read back: a truth value stands for its number, and a timestamp
is made of no text but the one that it is written as (`StoredCell.value_text_cases`). So a cell that
is no real number is read back as it was stored, whatever its column was declared as
(`StoredCell.ofLiteral?_write`).
-/

namespace SqlConsole

open Text

/-! ## Numbers -/

namespace Decimal

/-- The number that digits denote, if there are any. -/
def toNat? (digits : List Char) : Option Nat :=
  if digits ≠ [] ∧ digits.all Char.isDigit = true then some (toNat digits) else none

/-- The number that digits denote, with or without a sign in front of them. -/
def toInt? (cs : List Char) : Option Int :=
  match cs with
  | '-' :: digits => (toNat? digits).map fun (n : Nat) => -(n : Int)
  | '+' :: digits => (toNat? digits).map Int.ofNat
  | digits => (toNat? digits).map Int.ofNat

theorem toNat_ofNat (n : Nat) : toNat (ofNat n) = n :=
  Nat.ofDigitChars_eq_foldl.symm.trans (Nat.ofDigitChars_toDigits (by decide) (by decide))

theorem toNat?_ofNat (n : Nat) : toNat? (ofNat n) = some n := by
  have hdigits : (ofNat n).all Char.isDigit = true := by
    rw [List.all_eq_true]
    intro c hc
    exact isDigit_of_mem hc
  rw [toNat?, if_pos ⟨ofNat_ne_nil n, hdigits⟩, toNat_ofNat]

/-- A digit is no sign. -/
theorem toInt?_of_isDigit {c : Char} (h : c.isDigit = true) (cs : List Char) :
    toInt? (c :: cs) = (toNat? (c :: cs)).map Int.ofNat := by
  rw [toInt?]
  all_goals
    rintro digits ⟨⟩
    exact absurd h (by decide)

/-- **A number is read back from its digits and its sign.** -/
theorem toInt?_ofInt (n : Int) : toInt? (ofInt n) = some n := by
  by_cases hn : n < 0
  · rw [ofInt, if_pos hn, toInt?, toNat?_ofNat, Option.map_some]
    apply congrArg some
    omega
  · obtain ⟨c, cs, hcs⟩ := List.exists_cons_of_ne_nil (ofNat_ne_nil n.natAbs)
    have hc : c.isDigit = true := by
      apply isDigit_of_mem (n := n.natAbs)
      rw [hcs]
      exact List.mem_cons_self
    have habs : Int.ofNat n.natAbs = n := by
      show (n.natAbs : Int) = n
      omega
    rw [ofInt, if_neg hn, hcs, toInt?_of_isDigit hc, ← hcs, toNat?_ofNat, Option.map_some, habs]

end Decimal

/-! ## Bytes -/

namespace Text

/-- Whether a character is a digit to the base of sixteen, in capitals. -/
def isHexDigit (c : Char) : Bool :=
  c.isDigit || ('A'.toNat ≤ c.toNat && c.toNat ≤ 'F'.toNat)

/-- The bytes that pairs of hexadecimal digits stand for, in any letter case. -/
def unhex? (cs : List Char) : Option (List UInt8) :=
  let digits := cs.map Char.toUpper
  if digits.length % 2 = 0 ∧ digits.all isHexDigit = true then some (unhex digits) else none

/-- A digit is one in capitals. -/
theorem hexDigit_spec {n : Nat} (h : n < 16) :
    (hexDigit n).toUpper = hexDigit n ∧ isHexDigit (hexDigit n) = true := by
  have hall : ∀ k : Fin 16, (hexDigit k).toUpper = hexDigit k ∧
      isHexDigit (hexDigit k) = true := by decide
  exact hall ⟨n, h⟩

theorem exists_of_mem_hexBytes {bs : List UInt8} {c : Char} (hc : c ∈ hexBytes bs) :
    ∃ n < 16, c = hexDigit n := by
  obtain ⟨b, -, hc⟩ := List.mem_flatMap.mp hc
  have hb : b.toNat < 256 := b.toNat_lt
  rcases List.mem_cons.mp hc with rfl | hc
  · exact ⟨b.toNat / 16, by omega, rfl⟩
  · rw [List.mem_singleton.mp hc]
    exact ⟨b.toNat % 16, by omega, rfl⟩

theorem length_hexBytes (bs : List UInt8) : (hexBytes bs).length = 2 * bs.length := by
  induction bs with
  | nil => rfl
  | cons b bs ih =>
    have hdigits : hexBytes (b :: bs) =
        hexDigit (b.toNat / 16) :: hexDigit (b.toNat % 16) :: hexBytes bs := rfl
    rw [hdigits, List.length_cons, List.length_cons, ih, List.length_cons]
    omega

/-- **Bytes are read back from their digits**, and nothing but digits is taken for bytes. -/
theorem unhex?_hexBytes (bs : List UInt8) : unhex? (hexBytes bs) = some bs := by
  have hupper : (hexBytes bs).map Char.toUpper = (hexBytes bs).map id := by
    apply List.map_congr_left
    intro c hc
    obtain ⟨n, hn, rfl⟩ := exists_of_mem_hexBytes hc
    exact (hexDigit_spec hn).1
  have hdigits : (hexBytes bs).all isHexDigit = true := by
    rw [List.all_eq_true]
    intro c hc
    obtain ⟨n, hn, rfl⟩ := exists_of_mem_hexBytes hc
    exact (hexDigit_spec hn).2
  have heven : (hexBytes bs).length % 2 = 0 := by
    rw [length_hexBytes]
    omega
  rw [unhex?, hupper, List.map_id, if_pos ⟨heven, hdigits⟩, unhex_hexBytes]

/-- The text between single quotes, if nothing follows them. -/
def enclosed? (cs : List Char) : Option (List Char) :=
  match unenclose? '\'' cs with
  | some (text, []) => some text
  | _ => none

theorem enclosed?_enclosed (cs : List Char) : enclosed? (enclosed '\'' cs) = some cs := by
  have hread := @unenclose?_enclosed '\'' cs [] (by simp)
  rw [List.append_nil] at hread
  rw [enclosed?, hread]

end Text

/-! ## Literals -/

namespace StoredCell

/-- The cell of a number that fits 64 bits. -/
def ofInt? (n : Int) : Option StoredCell :=
  if Int64.minValue.toInt ≤ n ∧ n ≤ Int64.maxValue.toInt then some (integer (Int64.ofInt n))
  else none

/-- The cell of a literal that has neither quotes nor a mark in front. -/
def ofBare? (cs : List Char) : Option StoredCell :=
  match Decimal.toInt? cs with
  | some n => ofInt? n
  | none =>
    if Nesting.spells cs "NULL" then some null
    else if Nesting.spells cs "TRUE" then some (integer 1)
    else if Nesting.spells cs "FALSE" then some (integer 0)
    else none

/-- The cell that a literal stands for; real numbers are left out. -/
def ofLiteral? (literal : String) : Option StoredCell :=
  match literal.toList with
  | '\'' :: cs => (enclosed? ('\'' :: cs)).map fun s => text (Utf8.encode s)
  | 'X' :: cs | 'x' :: cs => ((enclosed? cs).bind unhex?).map blob
  | cs => ofBare? cs

theorem ofInt?_toInt (n : Int64) : ofInt? n.toInt = some (integer n) := by
  have hbounds : Int64.minValue.toInt ≤ n.toInt ∧ n.toInt ≤ Int64.maxValue.toInt :=
    ⟨n.minValue_le_toInt, n.toInt_le⟩
  rw [ofInt?, if_pos hbounds, Int64.ofInt_toInt]

theorem ofLiteral?_int (n : Int64) :
    ofLiteral? ((Value.int n).write .literal) = some (integer n) := by
  have hmark : ∀ c cs, Decimal.ofInt n.toInt = c :: cs → c.isDigit = true ∨ c = '-' := by
    intro c cs h
    apply Decimal.mem_ofInt (n := n.toInt)
    rw [h]
    exact List.mem_cons_self
  have hlist : ((Value.int n).write .literal).toList = Decimal.ofInt n.toInt := by
    rw [Value.write, String.toList_ofList]
    rfl
  rw [ofLiteral?, hlist]
  split
  · exact absurd (hmark _ _ ‹_›) (by decide)
  · exact absurd (hmark _ _ ‹_›) (by decide)
  · exact absurd (hmark _ _ ‹_›) (by decide)
  · rw [ofBare?, Decimal.toInt?_ofInt]
    exact ofInt?_toInt n

theorem ofLiteral?_text (s : String) :
    ofLiteral? ((Value.text s).write .literal) = some (text (Utf8.encode s.toList)) := by
  have hlist : ((Value.text s).write .literal).toList =
      '\'' :: (doubled '\'' s.toList ++ ['\'']) := by
    rw [Value.write, String.toList_ofList]
    rfl
  have hread := enclosed?_enclosed s.toList
  rw [enclosed, List.cons_append] at hread
  rw [ofLiteral?, hlist]
  show (enclosed? _).map _ = _
  rw [hread]
  rfl

theorem ofLiteral?_bytes (bs : List UInt8) :
    ofLiteral? ((Value.bytes bs).write .literal) = some (blob bs) := by
  have hlist : ((Value.bytes bs).write .literal).toList =
      'X' :: enclosed '\'' (hexBytes bs) := by
    rw [Value.write, String.toList_ofList]
    rfl
  rw [ofLiteral?, hlist]
  show ((enclosed? _).bind unhex?).map blob = _
  rw [enclosed?_enclosed, Option.bind_some, unhex?_hexBytes]
  rfl

/-! ## Declared types -/

/-- What a declared type makes of a text: nothing else, or a timestamp that is written so. -/
theorem value_text_cases (declared : Option String) (bytes : List UInt8) :
    (text bytes).value declared = .text (Utf8.decodeLossy bytes) ∨
      ∃ t : Timestamp, (text bytes).value declared = .timestamp t ∧
        t.text = (Utf8.decodeLossy bytes).toList := by
  rw [value]
  split
  case isFalse => exact Or.inl rfl
  case isTrue =>
    cases hparse : Timestamp.parse? (Utf8.decodeLossy bytes).toList with
    | none => exact Or.inl rfl
    | some t => exact Or.inr ⟨t, rfl, Timestamp.text_of_parse? hparse⟩

/-- What a declared type makes of a number: nothing else, or the truth value that it stands for. -/
theorem value_integer_cases (declared : Option String) (n : Int64) :
    (integer n).value declared = .int n ∨
      (n = 0 ∧ (integer n).value declared = .bool false) ∨
      (n = 1 ∧ (integer n).value declared = .bool true) := by
  by_cases htruth : (declared.any isBooleanType && (n == 0 || n == 1)) = true
  · have hn : n = 0 ∨ n = 1 := by
      simp only [Bool.and_eq_true, Bool.or_eq_true, beq_iff_eq] at htruth
      exact htruth.2
    rw [value, if_pos htruth]
    rcases hn with rfl | rfl
    · exact Or.inr (Or.inl ⟨rfl, rfl⟩)
    · exact Or.inr (Or.inr ⟨rfl, rfl⟩)
  · rw [value, if_neg htruth]
    exact Or.inl rfl

/-- **A text is written in the same way whatever the declared type**, in all forms. -/
theorem write_value_text (declared : Option String) (bytes : List UInt8) (form : Form) :
    ((text bytes).value declared).write form =
      (Value.text (Utf8.decodeLossy bytes)).write form := by
  rcases value_text_cases declared bytes with h | ⟨t, h, ht⟩
  · rw [h]
  · rw [h]
    cases form with
    | table | csv | json => exact congrArg String.ofList ht
    | literal =>
      apply congrArg String.ofList
      show enclosed '\'' t.text = _
      rw [ht]
      rfl

/-- A cell that is no real number, and that holds UTF-8 if it is a text. -/
def Exact : StoredCell → Prop
  | null | integer _ | blob _ => True
  | text bytes => ∃ s, bytes = Utf8.encode s
  | real _ => False

/-- **A cell is read back from its literal**, whatever the declared type. -/
theorem ofLiteral?_write {cell : StoredCell} (h : cell.Exact) (declared : Option String) :
    ofLiteral? ((cell.value declared).write .literal) = some cell := by
  cases cell with
  | null =>
    rw [value]
    rfl
  | integer n =>
    rcases value_integer_cases declared n with h | ⟨rfl, h⟩ | ⟨rfl, h⟩
    · rw [h, ofLiteral?_int]
    · rw [h]
      rfl
    · rw [h]
      rfl
  | real x => exact h.elim
  | text bytes =>
    obtain ⟨s, rfl⟩ := h
    rw [write_value_text, ofLiteral?_text, Utf8.decodeLossy_encode, String.toList_ofList]
  | blob bytes => exact ofLiteral?_bytes bytes

/-- **Declared types change nothing of what is stored.** The literal of a cell that is no real
number is read back as that cell, with any declared type and with none. A text is written with any
declared type as it is without one, in all four forms. -/
theorem declaration_immaterial {cell : StoredCell} (h : cell.Exact) (declared : Option String) :
    ofLiteral? ((cell.value declared).write .literal) = some cell ∧
      ∀ bytes, cell = text bytes → ∀ form,
        (cell.value declared).write form = (cell.value none).write form := by
  refine ⟨ofLiteral?_write h declared, ?_⟩
  rintro bytes rfl form
  rw [write_value_text, write_value_text]

/-- The last second of a leap year, in a column of dates. -/
theorem declaration_immaterial_leapSecond :
    let cell := text (Utf8.encode "2024-12-31 23:59:60".toList)
    cell.Exact ∧
      (∃ t, cell.value (some "DateTime") = .timestamp t) ∧
      ofLiteral? ((cell.value (some "DateTime")).write .literal) = some cell ∧
      ∀ bytes, cell = text bytes → ∀ form,
        (cell.value (some "DateTime")).write form = (cell.value none).write form :=
  have hexact : (text (Utf8.encode "2024-12-31 23:59:60".toList)).Exact := ⟨_, rfl⟩
  ⟨hexact, ⟨⟨2024, 12, 31, 23, 59, 60, by decide⟩, by decide⟩,
    declaration_immaterial hexact (some "DateTime")⟩

end StoredCell

end SqlConsole
