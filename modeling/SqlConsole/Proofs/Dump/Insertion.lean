import SqlConsole.Proofs.Dump.Literal
import Mathlib.Data.List.Forall2

/-!
# Reading the rows of a script back

A reader of the lines that hold rows. It knows nothing of the values: a name is read up to the
blank behind it, or up to the quote that closes it, and what stands between the brackets is cut at
the commas that are not between single quotes (`Text.cutAtCommas`).

Each piece of a line is read off its front whatever follows, so that the pieces of a whole line are
found one by one. A literal has no comma that the reader would cut at, since the quotes within a
text come in pairs (`Text.Whole`): it is one piece, never less and never more. The reader therefore
gives back the name and the literals of every line (`Dump.readInsert?_insertLine`), and lines of
different names or literals differ.
-/

namespace SqlConsole

namespace Text

/-! ## Text between quotes -/

/-- The text in front of the next single `quote`, every pair of quotes read as one, and what
follows that quote. -/
def undouble? (quote : Char) : List Char → Option (List Char × List Char)
  | [] => none
  | c :: cs =>
    if c = quote then
      match cs with
      | [] => some ([], [])
      | d :: rest =>
        if d = quote then (undouble? quote rest).map fun (text, rest) => (quote :: text, rest)
        else some ([], d :: rest)
    else (undouble? quote cs).map fun (text, rest) => (c :: text, rest)

/-- A text between quotes, and what follows it. -/
def unenclose? (quote : Char) : List Char → Option (List Char × List Char)
  | [] => none
  | c :: cs => if c = quote then undouble? quote cs else none

variable {quote : Char}

theorem undouble?_cons_of_ne {c : Char} (h : c ≠ quote) (cs : List Char) :
    undouble? quote (c :: cs) =
      (undouble? quote cs).map fun (text, rest) => (c :: text, rest) := by
  rw [undouble?.eq_def]
  simp [h]

/-- The doubling is undone up to the quote that closes the text. -/
theorem undouble?_doubled (cs : List Char) {rest : List Char} (h : rest.head? ≠ some quote) :
    undouble? quote (doubled quote cs ++ quote :: rest) = some (cs, rest) := by
  induction cs with
  | nil =>
    cases rest with
    | nil => simp [undouble?]
    | cons d rest =>
      have hd : d ≠ quote := by simpa using h
      simp [undouble?, hd]
  | cons c cs ih =>
    by_cases hc : c = quote
    · subst hc
      simp [undouble?, ih]
    · simp [doubled_cons_of_ne hc, undouble?_cons_of_ne hc, ih]

/-- **A text between quotes is read back**, whatever it is. -/
theorem unenclose?_enclosed (cs : List Char) {rest : List Char} (h : rest.head? ≠ some quote) :
    unenclose? quote (enclosed quote cs ++ rest) = some (cs, rest) := by
  have htext : enclosed quote cs ++ rest = quote :: (doubled quote cs ++ quote :: rest) := by
    simp [enclosed]
  rw [htext, unenclose?, if_pos rfl, undouble?_doubled cs h]

/-! ## Hexadecimal digits -/

/-- The number that a digit stands for. -/
def hexValue (c : Char) : Nat := if c.isDigit then c.toNat - 48 else c.toNat - 55

/-- The bytes that pairs of digits stand for. -/
def unhex : List Char → List UInt8
  | high :: low :: rest => UInt8.ofNat (16 * hexValue high + hexValue low) :: unhex rest
  | _ => []

theorem hexValue_hexDigit {n : Nat} (h : n < 16) : hexValue (hexDigit n) = n := by
  have hall : ∀ k : Fin 16, hexValue (hexDigit k) = k := by decide
  exact hall ⟨n, h⟩

/-- **The digits of bytes give the bytes back.** -/
theorem unhex_hexBytes (bs : List UInt8) : unhex (hexBytes bs) = bs := by
  induction bs with
  | nil => rfl
  | cons b bs ih =>
    have hb : b.toNat < 256 := b.toNat_lt
    have hhigh : hexValue (hexDigit (b.toNat / 16)) = b.toNat / 16 :=
      hexValue_hexDigit (by omega)
    have hlow : hexValue (hexDigit (b.toNat % 16)) = b.toNat % 16 :=
      hexValue_hexDigit (by omega)
    have hdigits : hexBytes (b :: bs) =
        hexDigit (b.toNat / 16) :: hexDigit (b.toNat % 16) :: hexBytes bs := rfl
    rw [hdigits, unhex, hhigh, hlow, Nat.div_add_mod, UInt8.ofNat_toNat, ih]

/-! ## Cutting at commas -/

/-- The parts of a text between the commas that are not within single quotes; `within` says
whether the text begins within them. -/
def cutAtCommas (within : Bool) : List Char → List (List Char)
  | [] => [[]]
  | c :: cs =>
    if c = ',' ∧ within = false then [] :: cutAtCommas false cs
    else (cutAtCommas (if c = '\'' then !within else within) cs).modifyHead (c :: ·)

/-- The cells between two brackets; there are none where nothing stands between them. -/
def cellTexts (cs : List Char) : List (List Char) := if cs = [] then [] else cutAtCommas false cs

/-- A text that is never cut, and that leaves no quotes open: a cut of a text that begins with it
is a cut of the rest. -/
def Whole (cs : List Char) : Prop :=
  ∀ rest, cutAtCommas false (cs ++ rest) = (cutAtCommas false rest).modifyHead (cs ++ ·)

theorem whole_nil : Whole [] := by
  intro rest
  exact congrFun List.modifyHead_id (cutAtCommas false rest) |>.symm

theorem Whole.append {xs ys : List Char} (hx : Whole xs) (hy : Whole ys) : Whole (xs ++ ys) := by
  intro rest
  rw [List.append_assoc, hx, hy, List.modifyHead_modifyHead]
  simp [Function.comp_def]

theorem whole_singleton {c : Char} (hcomma : c ≠ ',') (hquote : c ≠ '\'') : Whole [c] := by
  intro rest
  simp [cutAtCommas, hcomma, hquote]

/-- A text with neither quotes nor commas. -/
theorem whole_of_forall {cs : List Char} (h : ∀ c ∈ cs, c ≠ ',' ∧ c ≠ '\'') : Whole cs := by
  induction cs with
  | nil => exact whole_nil
  | cons c cs ih =>
    obtain ⟨⟨hcomma, hquote⟩, hcs⟩ := List.forall_mem_cons.mp h
    exact (whole_singleton hcomma hquote).append (ih hcs)

/-- Within quotes no comma counts, and a pair of quotes leads back into them. -/
theorem cutAtCommas_doubled (cs rest : List Char) :
    cutAtCommas true (doubled '\'' cs ++ '\'' :: rest) =
      (cutAtCommas false rest).modifyHead (doubled '\'' cs ++ ['\''] ++ ·) := by
  induction cs with
  | nil => simp [cutAtCommas]
  | cons c cs ih =>
    by_cases hc : c = '\''
    · subst hc
      simp [cutAtCommas, ih, List.modifyHead_modifyHead, Function.comp_def]
    · simp [doubled_cons_of_ne hc, cutAtCommas, hc, ih, List.modifyHead_modifyHead,
        Function.comp_def]

/-- **A text between quotes is whole**, whatever quotes and commas it has. -/
theorem whole_enclosed (cs : List Char) : Whole (enclosed '\'' cs) := by
  intro rest
  have htext : enclosed '\'' cs ++ rest = '\'' :: (doubled '\'' cs ++ '\'' :: rest) := by
    simp [enclosed]
  rw [htext, cutAtCommas, if_neg (by decide), if_pos rfl, Bool.not_false, cutAtCommas_doubled,
    List.modifyHead_modifyHead]
  simp [enclosed, Function.comp_def]

/-- Whole texts are found again between the commas that were put there. -/
theorem cutAtCommas_joined {part : List Char} {parts : List (List Char)} (hpart : Whole part)
    (hparts : ∀ cs ∈ parts, Whole cs) :
    cutAtCommas false (joined [','] (part :: parts)) = part :: parts := by
  induction parts generalizing part with
  | nil =>
    have hcut := hpart []
    simpa [joined, cutAtCommas] using hcut
  | cons next parts ih =>
    obtain ⟨hnext, hparts⟩ := List.forall_mem_cons.mp hparts
    rw [joined, List.append_assoc, hpart, List.singleton_append, cutAtCommas, if_pos ⟨rfl, rfl⟩,
      ih hnext hparts]
    simp

/-- **Cells are cut as they were joined.** A cell is not empty, so that no cells at all can be told
from one. -/
theorem cellTexts_joined {parts : List (List Char)} (hwhole : ∀ cs ∈ parts, Whole cs)
    (hne : ∀ cs ∈ parts, cs ≠ []) : cellTexts (joined [','] parts) = parts := by
  cases parts with
  | nil => rfl
  | cons part parts =>
    obtain ⟨hpart, hparts⟩ := List.forall_mem_cons.mp hwhole
    have hjoined : joined [','] (part :: parts) ≠ [] := by
      rw [joined_cons]
      exact List.append_ne_nil_of_left_ne_nil (hne part List.mem_cons_self) _
    rw [cellTexts, if_neg hjoined, cutAtCommas_joined hpart hparts]

end Text

open Text

/-! ## Literals -/

/-- A number, with or without a sign and a point. -/
theorem whole_number {cs : List Char} (h : ∀ c ∈ cs, c.isDigit = true ∨ c = '.' ∨ c = '-') :
    Whole cs := by
  refine whole_of_forall fun c hc => ⟨?_, ?_⟩
  all_goals
    rintro rfl
    exact absurd (h _ hc) (by decide)

theorem Decimal.mem_ofInt {c : Char} {n : Int} (h : c ∈ ofInt n) : c.isDigit = true ∨ c = '-' := by
  rw [ofInt] at h
  split at h
  · exact (List.mem_cons.mp h).symm.imp_left isDigit_of_mem
  · exact Or.inl (isDigit_of_mem h)

theorem Decimal.ofNat_ne_nil (n : Nat) : ofNat n ≠ [] := Nat.toDigits_ne_nil

theorem Decimal.ofInt_ne_nil (n : Int) : ofInt n ≠ [] := by
  rw [ofInt]
  split
  · exact List.cons_ne_nil _ _
  · exact ofNat_ne_nil _

namespace Binary64

variable {x : Binary64}

theorem mem_text (h : x.isFinite = true) {c : Char} (hc : c ∈ x.text) :
    c.isDigit = true ∨ c = '.' ∨ c = '-' := by
  rw [text_of_isFinite h] at hc
  rcases List.mem_append.mp hc with hc | hc
  · split at hc
    · exact Or.inr (Or.inr (List.mem_singleton.mp hc))
    · cases hc
  · split at hc
    · rw [List.mem_singleton.mp hc]
      exact Or.inl rfl
    · exact (Scientific.mem_text hc).imp_right Or.inl

theorem Scientific.text_ne_nil (s : Scientific) : s.text ≠ [] := by
  rw [text]
  split
  · exact List.append_ne_nil_of_left_ne_nil (Decimal.ofNat_ne_nil _) _
  · exact List.append_ne_nil_of_right_ne_nil _ (List.cons_ne_nil _ _)

theorem text_ne_nil (h : x.isFinite = true) : x.text ≠ [] := by
  rw [text_of_isFinite h]
  refine List.append_ne_nil_of_right_ne_nil _ ?_
  split
  · exact List.cons_ne_nil _ _
  · exact Scientific.text_ne_nil _

end Binary64

namespace Value

/-- **A literal is whole**: the commas within it are not the reader's, and it opens nothing. -/
theorem whole_literal (v : Value) : Whole v.literal := by
  cases v with
  | null => exact whole_of_forall (by simp [literal, plain])
  | bool b => cases b <;> exact whole_of_forall (by simp [literal, plain])
  | int n => exact whole_number fun c hc => (Decimal.mem_ofInt hc).imp_right Or.inr
  | uint n => exact whole_number fun c hc => Or.inl (Decimal.isDigit_of_mem hc)
  | float x =>
    rw [literal]
    split
    case isTrue hfinite => exact whole_number fun c hc => Binary64.mem_text hfinite hc
    case isFalse => split_ifs <;> exact whole_of_forall (by simp)
  | text s => exact whole_enclosed s.toList
  | bytes bs =>
    exact (whole_singleton (by decide) (by decide)).append (whole_enclosed (hexBytes bs))
  | timestamp t => exact whole_enclosed t.text

theorem literal_ne_nil (v : Value) : v.literal ≠ [] := by
  cases v with
  | null => simp [literal, plain]
  | bool b => cases b <;> simp [literal, plain]
  | int n => exact Decimal.ofInt_ne_nil n.toInt
  | uint n => exact Decimal.ofNat_ne_nil n.toNat
  | float x =>
    rw [literal]
    split
    case isTrue hfinite => exact Binary64.text_ne_nil hfinite
    case isFalse => split_ifs <;> simp
  | text s => exact List.cons_ne_nil _ _
  | bytes bs => exact List.cons_ne_nil _ _
  | timestamp t => exact List.cons_ne_nil _ _

/-- The text that a literal stands for, if it is one in quotes. -/
def readText? (literal : String) : Option String :=
  match unenclose? '\'' literal.toList with
  | some (cs, []) => some (String.ofList cs)
  | _ => none

/-- The bytes that a literal stands for, if it is one of bytes. -/
def readBytes? (literal : String) : Option (List UInt8) :=
  match literal.toList with
  | 'X' :: cs =>
    match unenclose? '\'' cs with
    | some (digits, []) => some (unhex digits)
    | _ => none
  | _ => none

theorem readText?_write (s : String) : readText? ((text s).write .literal) = some s := by
  have hread := @unenclose?_enclosed '\'' s.toList [] (by simp)
  rw [List.append_nil] at hread
  simp [readText?, write, literal, hread]

theorem readBytes?_write (bs : List UInt8) : readBytes? ((bytes bs).write .literal) = some bs := by
  have hread := @unenclose?_enclosed '\'' (hexBytes bs) [] (by simp)
  rw [List.append_nil] at hread
  simp [readBytes?, write, literal, hread, unhex_hexBytes]

end Value

/-! ## Names -/

namespace Identifier

/-- A name, and what follows it: up to the quote that closes it, or up to a blank. -/
def read? (cs : List Char) : Option (String × List Char) :=
  match cs with
  | '"' :: _ => (unenclose? '"' cs).map fun (name, rest) => (String.ofList name, rest)
  | _ => some (String.ofList (cs.takeWhile (· ≠ ' ')), cs.dropWhile (· ≠ ' '))

/-- **A name is read back in front of a blank**, with and without quotes. -/
theorem read?_write (name : String) (rest : List Char) :
    read? (write name ++ ' ' :: rest) = some (name, ' ' :: rest) := by
  rw [write]
  split
  case isTrue =>
    have hread := @unenclose?_enclosed '"' name.toList (' ' :: rest) (by simp)
    have hopened : quoted name ++ ' ' :: rest =
        '"' :: (doubled '"' name.toList ++ '"' :: ' ' :: rest) := by
      simp [quoted, enclosed]
    rw [← quoted, hopened] at hread
    rw [hopened, read?, hread]
    simp
  case isFalse h =>
    obtain ⟨hne, hplain⟩ := all_of_needsQuotes (Bool.eq_false_iff.mpr h)
    have hword : ∀ c ∈ name.toList, c ≠ ' ' ∧ c ≠ '"' := by
      intro c hc
      have hc := List.all_eq_true.mp hplain c hc
      constructor <;> rintro rfl <;> exact absurd hc (by decide)
    have hunquoted : ∀ tail, name.toList ++ ' ' :: rest ≠ '"' :: tail := by
      intro tail htail
      obtain ⟨c, cs, hname⟩ := List.exists_cons_of_ne_nil hne
      rw [hname, List.cons_append, List.cons.injEq] at htail
      exact (hword c (hname ▸ List.mem_cons_self)).2 htail.1
    have hblank : ∀ c ∈ name.toList, decide (c ≠ ' ') = true := by
      intro c hc
      exact decide_eq_true (hword c hc).1
    rw [read?]
    · rw [List.takeWhile_append_of_pos hblank, List.dropWhile_append_of_pos hblank]
      simp
    · exact hunquoted

end Identifier

/-! ## Lines -/

namespace Dump

/-- The name and the literals of a line that holds a row. -/
def readInsert? (line : String) : Option (String × List String) := do
  let cs ← line.toList.dropPrefix? "INSERT INTO ".toList
  let (name, cs) ← Identifier.read? cs
  let cs ← cs.dropPrefix? " VALUES(".toList
  let cs ← cs.dropSuffix? ");".toList
  some (name, (cellTexts cs).map String.ofList)

/-- **Every line is read back as its name and its literals.** -/
theorem readInsert?_insertLine (table : String) (row : Row) :
    readInsert? (insertLine table row) = some (table, row.write .literal) := by
  have hinsert (cs : List Char) :
      ("INSERT INTO ".toList ++ cs).dropPrefix? "INSERT INTO ".toList = some cs :=
    List.dropPrefix?_append_of_beq cs (beq_self_eq_true _)
  have hvalues (cs : List Char) : (' ' :: ("VALUES(".toList ++ cs)).dropPrefix? " VALUES(".toList =
      some cs :=
    List.dropPrefix?_append_of_beq cs (beq_self_eq_true _)
  have hend (cs : List Char) : (cs ++ ");".toList).dropSuffix? ");".toList = some cs :=
    List.dropSuffix?_eq_some_iff.mpr ⟨");".toList, rfl, beq_self_eq_true _⟩
  have hcells : cellTexts (joined [','] (row.map Value.literal)) = row.map Value.literal :=
    cellTexts_joined
      (List.forall_mem_map.mpr fun v _ => v.whole_literal)
      (List.forall_mem_map.mpr fun v _ => v.literal_ne_nil)
  have hliterals : (row.map Value.literal).map String.ofList = row.write .literal := by
    simp [Row.write, Value.write]
  have hline : (insertLine table row).toList =
      "INSERT INTO ".toList ++ (Identifier.write table ++
        ' ' :: ("VALUES(".toList ++ (joined [','] (row.map Value.literal) ++ ");".toList))) := by
    unfold insertLine
    simp
  rw [readInsert?, hline, hinsert]
  simp only [Option.bind_eq_bind, Option.bind_some, Identifier.read?_write, hvalues, hend, hcells,
    hliterals]

/-- **Lines differ as their rows do.** Two lines are the same only if the names are, the rows have
as many cells, and each cell has the literal of the one at its place. -/
theorem insertLine_eq_iff {table table' : String} {row row' : Row} :
    insertLine table row = insertLine table' row' ↔
      table = table' ∧
        List.Forall₂ (fun v w => v.write .literal = w.write .literal) row row' := by
  have hcells : List.Forall₂ (fun v w => v.write .literal = w.write .literal) row row' ↔
      row.write .literal = row'.write .literal := by
    rw [Row.write, Row.write, ← List.forall₂_eq_eq_eq, List.forall₂_map_left_iff,
      List.forall₂_map_right_iff]
  have hliterals (r : Row) : r.map Value.literal = (r.write .literal).map String.toList := by
    simp [Row.write, Value.write, Function.comp_def]
  rw [hcells]
  constructor
  · intro h
    have hread := congrArg readInsert? h
    rw [readInsert?_insertLine, readInsert?_insertLine] at hread
    simpa [Row.write] using hread
  · rintro ⟨rfl, hrow⟩
    unfold insertLine
    rw [hliterals row, hliterals row', hrow]

/-- **Rows are written so that they can be read in one way only.** The reader gives back the name
and the literals of every line, so that lines agree only where these do, and the literal of a text
or of bytes gives back what it was made of. -/
theorem insertLine_read_uniquely (table : String) (row : Row) :
    readInsert? (insertLine table row) = some (table, row.write .literal) ∧
      (∀ table' row', insertLine table row = insertLine table' row' ↔
        table = table' ∧
          List.Forall₂ (fun v w => v.write .literal = w.write .literal) row row') ∧
      (∀ s, Value.readText? ((Value.text s).write .literal) = some s) ∧
      ∀ bs, Value.readBytes? ((Value.bytes bs).write .literal) = some bs :=
  ⟨readInsert?_insertLine table row, fun _ _ => insertLine_eq_iff, Value.readText?_write,
    Value.readBytes?_write⟩

end Dump

end SqlConsole
