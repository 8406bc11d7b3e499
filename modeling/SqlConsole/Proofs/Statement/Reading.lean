import SqlConsole.Proofs.Statement.Lexeme

/-!
# Reading by lexemes

`Scan.run` reads a text character by character. `Scan.runLexemes` reads its lexemes instead, each of
them in one step (`Scan.pass`), and comes to the same fragments and the same end
(`Scan.run_eq_runLexemes`). What is proved of a scan from here on is proved on lexemes.
-/

namespace SqlConsole

open Text Lexeme

/-- The mode at the end of a lexeme, if nothing follows. -/
def Lexeme.mode : Lexeme → Mode
  | quoted quote _ closed => if closed then .plain else .quoted quote
  | bracketed _ closed => if closed then .plain else .bracketed
  | lineComment _ => .lineComment
  | blockComment _ closed => if closed then .plain else .blockComment
  | word _ | symbol _ => .plain

/-- Behind a lexeme the reading is in plain text, at the end of a line comment, or at the end. -/
theorem Lexeme.Fits.mode_cases {l : Lexeme} {rest : List Char} (h : l.Fits rest) :
    l.mode = .plain ∨ (l.mode = .lineComment ∧ ∀ c ∈ rest.head?, c = '\n') ∨ rest = [] := by
  cases h with
  | lineComment _ hrest => exact Or.inr (Or.inl ⟨rfl, hrest⟩)
  | openQuoted _ | openBracketed _ | openBlockComment _ => exact Or.inr (Or.inr rfl)
  | _ => exact Or.inl rfl

theorem Lexeme.Fits.eq_newline {l : Lexeme} {rest : List Char} (h : l.Fits rest)
    (hh : l.text.head? = some '\n') : l = .symbol '\n' := by
  cases h with
  | symbol _ _ _ _ _ => rw [Option.some.inj hh]
  | word _ hw _ => exact absurd (hw '\n' (List.mem_of_head? hh)) (by decide)
  | quoted hq _ | openQuoted hq => cases hh; exact absurd hq (by decide)
  | _ => exact absurd (Option.some.inj hh) (by decide)

/-- Whether the last character outside comments that is no space is a `;`, once a lexeme was read;
`before` says it of the text before. -/
def Lexeme.settles (l : Lexeme) (before : Bool) : Bool :=
  match l with
  | lineComment _ | blockComment _ _ => before
  | symbol c => if isSpace c then before else c == ';'
  | quoted _ _ _ | bracketed _ _ | word _ => false

/-- The nesting behind a lexeme. -/
def Nesting.after (n : Nesting) : Lexeme → Nesting
  | .word letters => n.read letters
  | .quoted _ _ _ | .bracketed _ _ | .lineComment _ | .blockComment _ _ | .symbol _ => n

/-- Whether a lexeme at this point separates statements. -/
def Nesting.separates (n : Nesting) (l : Lexeme) : Prop := l = .symbol ';' ∧ n.depth = 0

instance (n : Nesting) (l : Lexeme) : Decidable (n.separates l) :=
  inferInstanceAs (Decidable (_ ∧ _))

namespace Scan

/-- Past a lexeme that does not separate. -/
def pass (s : Scan) (l : Lexeme) : Scan :=
  { s with
    mode := l.mode
    nesting := s.nesting.after l
    settled := l.settles s.settled
    kept := l.bare.text.reverse ++ s.kept
    pos := s.pos + byteSize l.text }

/-- The fragments of the rest of a text that consists of these lexemes, and the reading at its
end. -/
def runLexemes (s : Scan) : List Lexeme → List Fragment × Scan
  | [] => (if s.start < s.pos then [s.fragment false] else [], s)
  | l :: ls =>
    if s.nesting.separates l then
      let (fs, last) := runLexemes s.separate ls
      (s.fragment true :: fs, last)
    else runLexemes (s.pass l) ls

/-! ## Reading one lexeme -/

theorem run_cons {s : Scan} {c : Char} (h : ¬ (c = ';' ∧ s.separates = true)) (cs : List Char) :
    run s (c :: cs) = run (s.step c cs.head?) cs := by
  rw [run, if_neg (by simpa using h)]

/-- Outside plain text no character separates. -/
theorem run_cons_of_mode {s : Scan} (h : s.mode ≠ .plain) (c : Char) (cs : List Char) :
    run s (c :: cs) = run (s.step c cs.head?) cs :=
  run_cons (by simp [separates, h]) cs

/-- Past characters that are kept and change nothing else. -/
def keep (s : Scan) (cs : List Char) : Scan :=
  { s with kept := cs.reverse ++ s.kept, pos := s.pos + byteSize cs }

/-- Past characters that count for nothing. -/
def skip (s : Scan) (cs : List Char) : Scan := { s with pos := s.pos + byteSize cs }

@[simp] theorem keep_nil (s : Scan) : s.keep [] = s := rfl

@[simp] theorem skip_nil (s : Scan) : s.skip [] = s := rfl

theorem keep_keep (s : Scan) (a b : List Char) : (s.keep a).keep b = s.keep (a ++ b) := by
  simp [keep, Nat.add_assoc]

theorem skip_skip (s : Scan) (a b : List Char) : (s.skip a).skip b = s.skip (a ++ b) := by
  simp [skip, Nat.add_assoc]

section Steps

variable {s : Scan} {c quote : Char} {next : Option Char}

theorem step_quoted (hm : s.mode = .quoted quote) :
    s.step c next = { s.keep [c] with mode := if c = quote then .plain else .quoted quote } := by
  simp [step, hm, keep]

theorem step_bracketed (hm : s.mode = .bracketed) :
    s.step c next = { s.keep [c] with mode := if c = ']' then .plain else .bracketed } := by
  simp [step, hm, keep]

theorem step_lineComment (hm : s.mode = .lineComment) (hc : c ≠ '\n') :
    s.step c next = s.skip [c] := by
  simp [step, hm, hc, skip]

theorem step_blockComment (hm : s.mode = .blockComment) (hc : ¬ (c = '*' ∧ next = some '/')) :
    s.step c next = s.skip [c] := by
  simp [step, hm, hc, skip]

theorem step_quote (hm : s.mode = .plain) (hc : isQuote c = true) :
    s.step c next = { s.keep [c] with mode := .quoted c, settled := false } := by
  have hline : c ≠ '-' := by rintro rfl; simp [isQuote] at hc
  have hblock : c ≠ '/' := by rintro rfl; simp [isQuote] at hc
  simp [step, hm, stepPlain, hline, hblock, hc, keep]

theorem step_bracket (hm : s.mode = .plain) :
    s.step '[' next = { s.keep ['['] with mode := .bracketed, settled := false } := by
  simp [step, hm, stepPlain, isQuote, keep]

theorem step_word (hm : s.mode = .plain) (hc : isWordChar c = true) :
    s.step c next =
      if next.any isWordChar then { s.keep [c] with word := c :: s.word, settled := false }
      else
        { s.keep [c] with
          nesting := s.nesting.read (c :: s.word).reverse, word := [], settled := false } := by
  have hline := ne_of_isWordChar hc (d := '-') rfl
  have hblock := ne_of_isWordChar hc (d := '/') rfl
  have hbracket := ne_of_isWordChar hc (d := '[') rfl
  have hq := isQuote_of_isWordChar hc
  cases hn : next.any isWordChar <;>
    simp [step, hm, stepPlain, hline, hblock, hbracket, hq, hc, hn, keep]

theorem step_symbol (hm : s.mode = .plain) (hq : isQuote c = false) (hb : c ≠ '[')
    (hw : isWordChar c = false) (hline : c = '-' → next ≠ some '-')
    (hblock : c = '/' → next ≠ some '*') :
    s.step c next =
      { s.keep [c] with settled := if isSpace c then s.settled else c == ';' } := by
  have hl : ¬ (c = '-' ∧ next = some '-') := fun h => hline h.1 h.2
  have hs : ¬ (c = '/' ∧ next = some '*') := fun h => hblock h.1 h.2
  simp [step, hm, stepPlain, hl, hs, hq, hb, hw, keep]

end Steps

section Modes

variable {s : Scan} {rest : List Char}

/-- A doubled quote closes the token and opens it again, which leaves no trace. -/
theorem run_doubled {quote : Char} (hq : isQuote quote = true) (hm : s.mode = .quoted quote)
    (hs : s.settled = false) (inner : List Char) :
    run s (doubled quote inner ++ rest) = run (s.keep (doubled quote inner)) rest := by
  induction inner generalizing s with
  | nil => rfl
  | cons c inner ih =>
    by_cases hc : c = quote
    · subst hc
      have hsemi : ¬ (c = ';' ∧ ({ s.keep [c] with mode := .plain } : Scan).separates = true) := by
        rintro ⟨rfl, _⟩; simp [isQuote] at hq
      have hstate : ({ ({ s.keep [c] with mode := .plain } : Scan).keep [c] with
          mode := .quoted c, settled := false } : Scan) = s.keep [c, c] := by
        simp [keep, hm, hs, Nat.add_assoc]
      rw [doubled_cons_self, List.cons_append, List.cons_append,
        run_cons_of_mode (by simp [hm]), step_quoted hm, if_pos rfl, run_cons hsemi,
        step_quote rfl hq, hstate, ih (by simp [keep, hm]) (by simp [keep, hs]), keep_keep]
      rfl
    · have hstate : ({ s.keep [c] with mode := .quoted quote } : Scan) = s.keep [c] := by
        simp [keep, hm]
      rw [doubled_cons_of_ne hc, List.cons_append, run_cons_of_mode (by simp [hm]), step_quoted hm,
        if_neg hc, hstate, ih (by simp [keep, hm]) (by simp [keep, hs]), keep_keep]
      rfl

theorem run_bracketed (hm : s.mode = .bracketed) {inner : List Char} (hin : ']' ∉ inner) :
    run s (inner ++ rest) = run (s.keep inner) rest := by
  induction inner generalizing s with
  | nil => rfl
  | cons c inner ih =>
    obtain ⟨hc, hin⟩ := not_or.mp (mt List.mem_cons.mpr hin)
    have hstate : ({ s.keep [c] with mode := .bracketed } : Scan) = s.keep [c] := by
      simp [keep, hm]
    rw [List.cons_append, run_cons_of_mode (by simp [hm]), step_bracketed hm,
      if_neg (fun h => hc h.symm), hstate, ih (by simp [keep, hm]) hin, keep_keep]
    rfl

theorem run_lineComment (hm : s.mode = .lineComment) {inner : List Char} (hin : '\n' ∉ inner) :
    run s (inner ++ rest) = run (s.skip inner) rest := by
  induction inner generalizing s with
  | nil => rfl
  | cons c inner ih =>
    obtain ⟨hc, hin⟩ := not_or.mp (mt List.mem_cons.mpr hin)
    rw [List.cons_append, run_cons_of_mode (by simp [hm]), step_lineComment hm (fun h => hc h.symm),
      ih (by simp [skip, hm]) hin, skip_skip]
    rfl

/-- A block comment is passed over up to its end, or to where nothing follows. -/
theorem run_blockComment (hm : s.mode = .blockComment) {inner : List Char}
    (hin : ¬ ['*', '/'] <:+: inner) (hrest : rest.head? ≠ some '/') :
    run s (inner ++ rest) = run (s.skip inner) rest := by
  induction inner generalizing s with
  | nil => rfl
  | cons c inner ih =>
    obtain ⟨hc, hin⟩ := Enclosure.not_infix_cons.mp hin
    have hnext : ¬ (c = '*' ∧ (inner ++ rest).head? = some '/') := by
      rintro ⟨rfl, hd⟩
      cases inner with
      | nil => exact hrest hd
      | cons d inner => exact hc ⟨rfl, hd⟩
    rw [List.cons_append, run_cons_of_mode (by simp [hm]), step_blockComment hm hnext,
      ih (by simp [skip, hm]) hin, skip_skip]
    rfl

theorem run_blockClosing (hm : s.mode = .blockComment) :
    run s ('*' :: '/' :: rest) = run { s.skip ['*', '/'] with mode := .plain } rest := by
  have hopen : s.step '*' (some '/') = { s.skip ['*'] with mode := .blockClosing } := by
    simp [step, hm, skip]
  have hclose : ∀ next, ({ s.skip ['*'] with mode := .blockClosing } : Scan).step '/' next =
      { s.skip ['*', '/'] with mode := .plain } := by
    intro next
    simp [step, skip, Nat.add_assoc]
  rw [run_cons_of_mode (by simp [hm]), List.head?_cons, hopen,
    run_cons_of_mode (by simp), hclose]

/-- A word is read where the next character belongs to no word. -/
theorem run_word (hm : s.mode = .plain) {letters : List Char} (hne : letters ≠ [])
    (hw : ∀ c ∈ letters, isWordChar c = true) (hrest : ∀ c ∈ rest.head?, isWordChar c = false) :
    run s (letters ++ rest) =
      run { s.keep letters with
        nesting := s.nesting.read (s.word.reverse ++ letters), word := [], settled := false }
        rest := by
  induction letters generalizing s with
  | nil => exact absurd rfl hne
  | cons c cs ih =>
    have hc := hw c List.mem_cons_self
    have hsemi : ¬ (c = ';' ∧ s.separates = true) :=
      fun h => ne_of_isWordChar hc (d := ';') rfl h.1
    rw [List.cons_append, run_cons hsemi, step_word hm hc]
    cases cs with
    | nil =>
      have hnext : ([] ++ rest : List Char).head?.any isWordChar = false := by
        rw [List.nil_append]
        cases hr : rest.head? with
        | none => rfl
        | some d => exact hrest d hr
      rw [hnext]
      simp
    | cons d ds =>
      have hd : isWordChar d = true := hw d (by simp)
      have hih := ih (s := { s.keep [c] with word := c :: s.word, settled := false }) hm (by simp)
        fun x hx => hw x (List.mem_cons_of_mem _ hx)
      rw [List.cons_append, List.head?_cons, Option.any_some, if_pos hd, ← List.cons_append, hih]
      simp [keep, Nat.add_assoc]

end Modes

/-! ## Reading one lexeme -/

section Lexemes

variable {s : Scan} {rest : List Char}

theorem run_quoted_open (hm : s.mode = .plain) {quote : Char} (hq : isQuote quote = true)
    (inner : List Char) :
    run s (quote :: (doubled quote inner ++ rest)) =
      run { s.keep (quote :: doubled quote inner) with mode := .quoted quote, settled := false }
        rest := by
  have hsemi : ¬ (quote = ';' ∧ s.separates = true) := by rintro ⟨rfl, _⟩; simp [isQuote] at hq
  rw [run_cons hsemi, step_quote hm hq, run_doubled hq rfl rfl]
  simp [keep, Nat.add_assoc]

theorem run_bracketed_open (hm : s.mode = .plain) {inner : List Char} (hin : ']' ∉ inner) :
    run s ('[' :: (inner ++ rest)) =
      run { s.keep ('[' :: inner) with mode := .bracketed, settled := false } rest := by
  rw [run_cons (by simp), step_bracket hm, run_bracketed rfl hin]
  simp [keep, Nat.add_assoc]

theorem run_lineComment_open (hm : s.mode = .plain) {inner : List Char} (hin : '\n' ∉ inner) :
    run s ('-' :: '-' :: (inner ++ rest)) =
      run { s.skip ('-' :: '-' :: inner) with mode := .lineComment, kept := ' ' :: s.kept }
        rest := by
  have hopen : s.step '-' (some '-') =
      { s.skip ['-'] with mode := .lineComment, kept := ' ' :: s.kept } := by
    simp [step, hm, stepPlain, skip]
  rw [run_cons (by simp), List.head?_cons, hopen, run_cons_of_mode (by simp),
    step_lineComment rfl (by decide), run_lineComment rfl hin]
  simp [skip, Nat.add_assoc]

theorem run_blockComment_open (hm : s.mode = .plain) {inner : List Char}
    (hin : ¬ ['*', '/'] <:+: inner) (hrest : rest.head? ≠ some '/') :
    run s ('/' :: '*' :: (inner ++ rest)) =
      run { s.skip ('/' :: '*' :: inner) with mode := .blockComment, kept := ' ' :: s.kept }
        rest := by
  have hopen : s.step '/' (some '*') =
      { s.skip ['/'] with mode := .blockOpening, kept := ' ' :: s.kept } := by
    simp [step, hm, stepPlain, skip]
  have hstar : ∀ next, ({ s.skip ['/'] with
      mode := .blockOpening, kept := ' ' :: s.kept } : Scan).step '*' next =
      { s.skip ['/', '*'] with mode := .blockComment, kept := ' ' :: s.kept } := by
    intro next
    simp [step, skip, Nat.add_assoc]
  rw [run_cons (by simp), List.head?_cons, hopen, run_cons_of_mode (by simp), hstar,
    run_blockComment rfl hin hrest]
  simp [skip, Nat.add_assoc]

/-- A lexeme that is read from plain text and does not separate takes one step. -/
theorem run_text_append {l : Lexeme} (hm : s.mode = .plain) (hword : s.word = [])
    (hf : l.Fits rest) (hsep : ¬ s.nesting.separates l) :
    run s (l.text ++ rest) = run (s.pass l) rest := by
  cases hf with
  | @quoted quote inner rest hq hrest =>
    have htext : (Lexeme.quoted quote inner true).text ++ rest =
        quote :: (doubled quote inner ++ quote :: rest) := by simp [text]
    rw [htext, run_quoted_open hm hq, run_cons_of_mode (by simp), step_quoted rfl, if_pos rfl]
    simp [pass, keep, Lexeme.mode, Nesting.after, settles, bare, isComment, text, Nat.add_assoc]
  | @openQuoted quote inner hq =>
    have htext : (Lexeme.quoted quote inner false).text ++ [] =
        quote :: (doubled quote inner ++ []) := by simp [text]
    rw [htext, run_quoted_open hm hq]
    simp [pass, keep, Lexeme.mode, Nesting.after, settles, bare, isComment, text]
  | @bracketed inner rest hin =>
    have htext : (Lexeme.bracketed inner true).text ++ rest = '[' :: (inner ++ ']' :: rest) := by
      simp [text]
    rw [htext, run_bracketed_open hm hin, run_cons_of_mode (by simp), step_bracketed rfl,
      if_pos rfl]
    simp [pass, keep, Lexeme.mode, Nesting.after, settles, bare, isComment, text, Nat.add_assoc]
  | @openBracketed inner hin =>
    have htext : (Lexeme.bracketed inner false).text ++ [] = '[' :: (inner ++ []) := by simp [text]
    rw [htext, run_bracketed_open hm hin]
    simp [pass, keep, Lexeme.mode, Nesting.after, settles, bare, isComment, text]
  | @lineComment inner rest hin hrest =>
    have htext : (Lexeme.lineComment inner).text ++ rest = '-' :: '-' :: (inner ++ rest) := rfl
    rw [htext, run_lineComment_open hm hin]
    simp [pass, skip, Lexeme.mode, Nesting.after, settles, bare, isComment, text]
  | @blockComment inner rest hin =>
    have htext : (Lexeme.blockComment inner true).text ++ rest =
        '/' :: '*' :: (inner ++ '*' :: '/' :: rest) := by simp [text]
    rw [htext, run_blockComment_open hm hin (by simp), run_blockClosing rfl]
    simp [pass, skip, Lexeme.mode, Nesting.after, settles, bare, isComment, text, Nat.add_assoc]
  | @openBlockComment inner hin =>
    have htext : (Lexeme.blockComment inner false).text ++ [] =
        '/' :: '*' :: (inner ++ []) := by simp [text]
    rw [htext, run_blockComment_open hm hin (by simp)]
    simp [pass, skip, Lexeme.mode, Nesting.after, settles, bare, isComment, text]
  | @word letters rest hne hw hrest =>
    have htext : (Lexeme.word letters).text ++ rest = letters ++ rest := rfl
    rw [htext, run_word hm hne hw hrest]
    simp [pass, keep, hm, hword, Lexeme.mode, Nesting.after, settles, bare, isComment, text]
  | @symbol c rest hq hb hw hline hblock =>
    have hsemi : ¬ (c = ';' ∧ s.separates = true) := by
      rintro ⟨rfl, h⟩
      exact hsep ⟨rfl, by simpa [separates, hm] using h⟩
    have htext : (Lexeme.symbol c).text ++ rest = c :: rest := rfl
    rw [htext, run_cons hsemi, step_symbol hm hq hb hw hline hblock]
    simp [pass, keep, hm, Lexeme.mode, Nesting.after, settles, bare, isComment, text]

theorem run_separator (hm : s.mode = .plain) (hd : s.nesting.depth = 0) (cs : List Char) :
    run s (';' :: cs) = (s.fragment true :: (run s.separate cs).1, (run s.separate cs).2) := by
  simp [run, separates, hm, hd]

/-- The newline behind a line comment is read like any other. -/
theorem run_newline (hm : s.mode = .lineComment) (cs : List Char) :
    run s ('\n' :: cs) = run (s.pass (.symbol '\n')) cs := by
  rw [run_cons_of_mode (by simp [hm])]
  simp [step, hm, pass, Lexeme.mode, Nesting.after, settles, bare, isComment, text, isSpace]

end Lexemes

/-! ## Reading all lexemes -/

/-- **A text is read by its lexemes.** The reading starts in plain text, or behind a line comment
where the line ends. -/
theorem run_eq_runLexemes {s : Scan} {cs : List Char} (hword : s.word = [])
    (hm : s.mode = .plain ∨ s.mode = .lineComment ∧ ∀ c ∈ cs.head?, c = '\n') :
    run s cs = runLexemes s (lexemes cs) := by
  induction cs using lexemeInduction generalizing s with
  | nil => rw [lexemes_nil]; rfl
  | cons l rest hf ih =>
    rw [lexemes_text_append hf, runLexemes]
    -- An open lexeme has nothing behind it, so the reading goes on from plain text or a line's end.
    have hpass : run (s.pass l) rest = runLexemes (s.pass l) (lexemes rest) := by
      rcases hf.mode_cases with hl | ⟨hl, hrest⟩ | hnil
      · exact ih hword (Or.inl hl)
      · exact ih hword (Or.inr ⟨hl, hrest⟩)
      · subst hnil; rw [lexemes_nil]; rfl
    obtain ⟨c, tail, htext⟩ := List.exists_cons_of_ne_nil hf.text_ne_nil
    rcases hm with hm | ⟨hm, hnewline⟩
    · by_cases hsep : s.nesting.separates l
      · obtain ⟨rfl, hd⟩ := hsep
        have htext' : (Lexeme.symbol ';').text ++ rest = ';' :: rest := rfl
        rw [if_pos ⟨rfl, hd⟩, htext', run_separator hm hd, ih (s := s.separate) rfl (Or.inl hm)]
      · rw [if_neg hsep, run_text_append hm hword hf hsep, hpass]
    · -- The newline behind a line comment is a lexeme of its own.
      have hl : l = .symbol '\n' := by
        refine hf.eq_newline ?_
        rw [htext, List.head?_cons, hnewline c (by rw [htext]; rfl)]
      subst hl
      have hsep : ¬ s.nesting.separates (.symbol '\n') := fun h => absurd h.1 (by decide)
      have htext' : (Lexeme.symbol '\n').text ++ rest = '\n' :: rest := rfl
      rw [if_neg hsep, htext', run_newline hm, hpass]

end Scan

end SqlConsole
