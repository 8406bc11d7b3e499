import SqlConsole.Dump
import SqlConsole.Proofs.Statement.Lines

/-!
# Names and values in a statement

The lines that a dump makes of rows hold names and values that may be any text. Each is written as
an inert text: one that is made of lexemes with nothing open, none of them a comment and none a `;`
of its own (`Inert`). A text of other characters is between quotes, which double those inside; a
number has no character that could do harm, but for the sign in front of it.

Inert texts with a harmless character between them are inert again (`Inert.append`). So is the whole
of a line, which therefore is one statement, and the same text again when it is read back
(`Inert.map_split`).
-/

namespace SqlConsole

open Text Lexeme

/-! ## Inert texts -/

/-- A lexeme that is whole, no comment and no `;`. -/
def Lexeme.IsInert (l : Lexeme) : Prop :=
  l.closed = true ∧ l.isComment = false ∧ l ≠ .symbol ';'

/-- A text that opens nothing, ends no statement and loses nothing. -/
def Inert (cs : List Char) : Prop := ∀ l ∈ lexemes cs, l.IsInert

section

variable {c : Char} {x y : List Char}

theorem inert_nil : Inert [] := by
  intro l hl
  rw [lexemes_nil] at hl
  cases hl

/-- An inert lexeme in front of an inert text. -/
theorem Inert.cons {l : Lexeme} (hf : l.Fits x) (hl : l.IsInert) (hx : Inert x) :
    Inert (l.text ++ x) := by
  rw [Inert, lexemes_text_append hf]
  exact List.forall_mem_cons.mpr ⟨hl, hx⟩

theorem Inert.last (h : Inert x) : ∀ l ∈ (lexemes x).getLast?, l.closed = true :=
  fun l hl => (h l (List.mem_of_getLast? hl)).1

theorem isInert_symbol (hne : c ≠ ';') : (Lexeme.symbol c).IsInert :=
  ⟨rfl, rfl, fun he => hne (Lexeme.symbol.inj he)⟩

/-- Inert texts on both sides of a character that is apart. -/
theorem Inert.append (hx : Inert x) (hc : Apart c) (hne : c ≠ ';') (hy : Inert y) :
    Inert (x ++ c :: y) := by
  rw [Inert, lexemes_append_apart hx.last hc]
  exact List.forall_mem_append.mpr ⟨hx, List.forall_mem_cons.mpr ⟨isInert_symbol hne, hy⟩⟩

/-- Text of words and of characters that are apart. -/
theorem inert_of_forall {cs : List Char}
    (h : ∀ c ∈ cs, isWordChar c = true ∨ Apart c ∧ c ≠ ';') : Inert cs := by
  induction cs using lexemeInduction with
  | nil => exact inert_nil
  | cons l rest hf ih =>
    obtain ⟨htext, hrest⟩ := List.forall_mem_append.mp h
    refine .cons hf ?_ (ih hrest)
    -- No other lexeme begins with such a character.
    have hopening {d : Char} {tail : List Char} (hd : l.text = d :: tail)
        (hword : isWordChar d = false) : Apart d ∧ d ≠ ';' :=
      (htext d (hd ▸ List.mem_cons_self)).resolve_left (by simp [hword])
    cases hf with
    | quoted hq _ | openQuoted hq =>
      obtain ⟨hapart, -⟩ := hopening rfl (isWordChar_of_isQuote hq)
      exact absurd hq (by simp [hapart.not_quote])
    | bracketed _ | openBracketed _ => exact absurd rfl (hopening rfl rfl).1.not_bracket
    | lineComment _ _ => exact absurd rfl (hopening rfl rfl).1.not_dash
    | blockComment _ | openBlockComment _ => exact absurd rfl (hopening rfl rfl).1.not_slash
    | word _ _ _ => exact ⟨rfl, rfl, nofun⟩
    | symbol _ _ hw _ _ => exact isInert_symbol (hopening rfl hw).2

theorem inert_word {s : String} (h : s.toList.all isWordChar = true) : Inert s.toList :=
  inert_of_forall fun c hc => Or.inl (List.all_eq_true.mp h c hc)

/-- A minus sign in front of a text that does not begin with one. -/
theorem Inert.negated (hx : Inert x) (hhead : x.head? ≠ some '-') : Inert ('-' :: x) := by
  have hfits : Fits (.symbol '-') x :=
    .symbol rfl (by decide) rfl (fun _ => hhead) fun hc => absurd hc (by decide)
  exact hx.cons hfits (isInert_symbol (by decide))

/-- **A text between quotes is one lexeme**, whatever it is. -/
theorem lexemes_enclosed {quote : Char} (hq : isQuote quote = true) (cs : List Char) :
    lexemes (enclosed quote cs) = [.quoted quote cs true] := by
  have hfits : Fits (.quoted quote cs true) [] := .quoted hq (by simp)
  have htext : enclosed quote cs = (Lexeme.quoted quote cs true).text ++ [] := by
    simp [enclosed, Lexeme.text]
  rw [htext, lexemes_text_append hfits, lexemes_nil]

/-- Different texts are different between quotes. -/
theorem enclosed_inj {quote : Char} (hq : isQuote quote = true) {cs ds : List Char}
    (h : enclosed quote cs = enclosed quote ds) : cs = ds := by
  have hlexemes := congrArg lexemes h
  rw [lexemes_enclosed hq, lexemes_enclosed hq] at hlexemes
  cases hlexemes
  rfl

theorem inert_enclosed {quote : Char} (hq : isQuote quote = true) (cs : List Char) :
    Inert (enclosed quote cs) := by
  rw [Inert, lexemes_enclosed hq]
  exact List.forall_mem_singleton.mpr ⟨rfl, rfl, nofun⟩

/-- A letter in front of a text between quotes. -/
theorem Inert.letter_enclosed {quote : Char} (hq : isQuote quote = true)
    (hc : isWordChar c = true) (cs : List Char) : Inert (c :: enclosed quote cs) := by
  have hfits : Fits (.word [c]) (enclosed quote cs) :=
    .word (by simp) (by simpa using hc) (by simpa [enclosed] using isWordChar_of_isQuote hq)
  exact (inert_enclosed hq cs).cons hfits ⟨rfl, rfl, nofun⟩

/-- Inert texts with commas between them. -/
theorem inert_joined {parts : List (List Char)} (h : ∀ cs ∈ parts, Inert cs) :
    Inert (joined [','] parts) := by
  induction parts with
  | nil => exact inert_nil
  | cons cs parts ih =>
    obtain ⟨hcs, hparts⟩ := List.forall_mem_cons.mp h
    cases parts with
    | nil => exact hcs
    | cons next parts =>
      rw [joined, List.append_assoc, List.singleton_append]
      exact hcs.append (by decide) (by decide) (ih hparts)

end

/-! ## Numbers -/

theorem isWordChar_of_isDigit {c : Char} (h : c.isDigit = true) : isWordChar c = true := by
  simp [isWordChar, Char.isAlphanum, h]

theorem Decimal.isDigit_of_mem {c : Char} {n : Nat} (h : c ∈ ofNat n) : c.isDigit = true :=
  Nat.isDigit_of_mem_toDigits (by decide) (by decide) h

/-- A number without a sign is made of digits and points. -/
theorem inert_of_digits {cs : List Char} (h : ∀ c ∈ cs, c.isDigit = true ∨ c = '.') : Inert cs :=
  inert_of_forall fun c hc =>
    (h c hc).imp isWordChar_of_isDigit fun (hp : c = '.') => hp ▸ by decide

/-- A number, with or without a sign. -/
theorem inert_signed {cs : List Char} (h : ∀ c ∈ cs, c.isDigit = true ∨ c = '.') (negative : Bool) :
    Inert ((if negative then ['-'] else []) ++ cs) := by
  cases negative with
  | false => exact inert_of_digits h
  | true =>
    refine (inert_of_digits h).negated fun hhead => ?_
    exact absurd (h _ (List.mem_of_head? hhead)) (by decide)

theorem Decimal.inert_ofInt (n : Int) : Inert (ofInt n) := by
  have h := inert_signed (fun c hc => Or.inl (isDigit_of_mem (n := n.natAbs) hc)) (n < 0)
  by_cases hn : n < 0
  · simpa [ofInt, hn] using h
  · simpa [ofInt, hn] using h

namespace Binary64

theorem Scientific.mem_text {s : Scientific} {c : Char} (h : c ∈ s.text) :
    c.isDigit = true ∨ c = '.' := by
  have hpadded {n m : Nat} (hc : c ∈ List.replicate n '0' ++ Decimal.ofNat m) :
      c.isDigit = true := by
    rcases List.mem_append.mp hc with hc | hc
    · rw [List.eq_of_mem_replicate hc]
      rfl
    · exact Decimal.isDigit_of_mem hc
  rw [text] at h
  split at h
  · -- No places behind the point, and zeros in front of it.
    rw [List.mem_append, or_comm, ← List.mem_append] at h
    exact Or.inl (hpadded h)
  · rcases List.mem_append.mp h with h | h
    · exact Or.inl (hpadded (List.mem_of_mem_take h))
    · rcases List.mem_cons.mp h with h | h
      · exact Or.inr h
      · exact Or.inl (hpadded (List.mem_of_mem_drop h))

/-- A finite double has a sign, or none, and the digits of its magnitude. -/
theorem text_of_isFinite {x : Binary64} (h : x.isFinite = true) :
    x.text = (if x.negative then ['-'] else []) ++
      if x.units = 0 then ['0'] else x.shortest.text := by
  simp [text, isNaN, h]

/-- A finite double is a number. -/
theorem inert_text {x : Binary64} (h : x.isFinite = true) : Inert x.text := by
  rw [text_of_isFinite h]
  refine inert_signed (fun c hc => ?_) x.negative
  split at hc
  · rw [List.mem_singleton.mp hc]
    exact Or.inl rfl
  · exact Scientific.mem_text hc

end Binary64

/-! ## Values and names -/

/-- **A value as a literal is inert**, whatever it holds. -/
theorem Value.inert_literal (v : Value) : Inert v.literal := by
  cases v with
  | null => exact inert_word (by simp [isWordChar])
  | bool b => cases b <;> exact inert_word (by simp [isWordChar])
  | int n => exact Decimal.inert_ofInt n.toInt
  | uint n => exact inert_of_digits fun c hc => Or.inl (Decimal.isDigit_of_mem hc)
  | float x =>
    rw [literal]
    split
    case isTrue hfinite => exact Binary64.inert_text hfinite
    case isFalse =>
      split
      case isTrue => exact inert_word (by simp [isWordChar])
      case isFalse =>
        have hhuge : Inert "9e999".toList := inert_word (by simp [isWordChar])
        split
        case isTrue =>
          have hminus : "-9e999".toList = '-' :: "9e999".toList := by simp
          rw [hminus]
          exact hhuge.negated (by simp)
        case isFalse => exact hhuge
  | text s => exact inert_enclosed rfl s.toList
  | bytes bs => exact .letter_enclosed rfl rfl (hexBytes bs)
  | timestamp t => exact inert_enclosed rfl t.text

/-- A name that stands for itself is a word. -/
theorem Identifier.all_of_needsQuotes {name : String} (h : needsQuotes name = false) :
    name.toList ≠ [] ∧ name.toList.all (fun c => c.isAlphanum || c == '_') = true := by
  rw [needsQuotes] at h
  cases hname : name.toList with
  | nil => simp [hname] at h
  | cons d ds =>
    simp only [hname, Bool.or_eq_false_iff, Bool.not_eq_false'] at h
    exact ⟨List.cons_ne_nil _ _, h.1.2⟩

/-- **A name is inert**, whatever it is. -/
theorem Identifier.inert_write (name : String) : Inert (write name) := by
  rw [write]
  split
  case isTrue => exact inert_enclosed rfl name.toList
  case isFalse h =>
    refine inert_of_forall fun c hc => Or.inl ?_
    obtain ⟨-, hplain⟩ := all_of_needsQuotes (Bool.eq_false_iff.mpr h)
    have hc := List.all_eq_true.mp hplain c hc
    rw [isWordChar, hc]
    rfl

/-! ## Inert texts as statements -/

/-- A statement with another first word than `CREATE` leaves no trigger body open. -/
theorem openBodies_cons {w : List Char} (h : Nesting.spells w "CREATE" = false)
    (ws : List (List Char)) : openBodies (w :: ws) = 0 := by
  have hread : Nesting.read {} w = ⟨.other, 0⟩ := by
    rw [Nesting.read, h]
    rfl
  rw [← depth_foldl_read, List.foldl_cons, hread, foldl_read_other]

namespace Inert

variable {cs : List Char} {text : String}

theorem unsplit (h : Inert cs) : Unsplit {} (lexemes cs) :=
  unsplit_of_ne (fun l hl => (h l hl).2.2) {}

/-- Nothing is lost of an inert text but the white space around it. -/
theorem sql_eq (h : Inert cs) (terminated : Bool) :
    (Piece.mk (lexemes cs) terminated).sql = trim cs := by
  have hbare : (lexemes cs).map bare = (lexemes cs).map id :=
    List.map_congr_left fun l hl => by simp [bare, (h l hl).2.1]
  rw [Piece.sql, hbare, List.map_id, source_lexemes]

/-- An inert text is one statement, if it begins no trigger. -/
theorem selfContained (h : Inert text.toList)
    (hbodies : openBodies (words (lexemes text.toList)) = 0) (htrim : trim text.toList ≠ []) :
    SelfContained text := by
  have hne : lexemes text.toList ≠ [] := by
    intro hnil
    rw [← source_lexemes text.toList, hnil] at htrim
    exact htrim rfl
  have hpieces := pieces_of_unsplit h.unsplit hne
  refine ⟨?_, ?_, fun f hf => ?_, fun hsplit => ?_⟩
  · rw [mode_run]
    cases hlast : (lexemes text.toList).getLast? with
    | none => rfl
    | some l => exact mode_of_closed (h.last l hlast)
  · have hunfinished : unfinished [] (lexemes text.toList) = lexemes text.toList :=
      unfinished_of_unsplit h.unsplit
    rw [depth_run, hunfinished]
    exact hbodies
  · rw [fragments_eq_place_pieces, hpieces] at hf
    rw [List.mem_singleton.mp hf]
  · have hlength := Statement.length_split text
    have hsql : (trim text.toList).isEmpty = false := by simpa using htrim
    rw [hsplit, statementPieces, hpieces, List.filter_singleton, h.sql_eq, hsql] at hlength
    cases hlength

/-- **The statement of an inert text is that text.** -/
theorem map_split (h : Inert text.toList) (hself : SelfContained text)
    (htrim : trim text.toList = text.toList) :
    (Statement.split text).map (·.sql) = [text] := by
  rw [hself.map_split, h.sql_eq, htrim, String.ofList_toList]

end Inert

end SqlConsole
