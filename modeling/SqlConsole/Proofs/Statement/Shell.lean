import SqlConsole.Proofs.Statement.Ending

/-!
# Statements that are typed in

A shell keeps what is typed until it is complete, takes the statements out and begins anew
(`Shell.enter`). This loses nothing if a complete text can be split apart from all that is typed
behind it. It can: what a complete text has behind its last separator are white space and comments,
so whatever follows it on a new line is read as if nothing stood before
(`Statement.split_newline_append`), and the whole is complete if the text that follows is, or if
that text says nothing (`isComplete_newline_append`).

`shell_composition` puts these together: line by line or all at once, the statements are the same.
-/

namespace SqlConsole

open Text Lexeme

/-! ## Lexemes of two texts -/

namespace Lexeme

/-- The lexemes of two texts side by side, if the last one of the first fits in front of the
second. -/
theorem lexemes_append_of_fits {x y : List Char} (h : ∀ l ∈ (lexemes x).getLast?, l.Fits y) :
    lexemes (x ++ y) = lexemes x ++ lexemes y := by
  have hy : source (lexemes y) = y := source_lexemes y
  rw [← hy] at h
  have hlexed := (lexed_lexemes x).append_of_fits (lexed_lexemes y) h
  rw [← lexemes_source hlexed, source_append, source_lexemes, source_lexemes]

/-- Whether a lexeme says nothing: white space, or a comment that is not left open. -/
def isIdle : Lexeme → Bool
  | symbol c => isSpace c
  | lineComment _ => true
  | blockComment _ closed => closed
  | quoted _ _ _ | bracketed _ _ | word _ => false

/-- A text of nothing but white space and comments, none of which is left open at its end unless it
is a line comment. -/
inductive Idle : List Char → Prop
  | nil : Idle []
  | space {c cs} (hc : isSpace c = true) (h : Idle cs) : Idle (c :: cs)
  | lineComment {inner cs} (hin : '\n' ∉ inner) (hcs : ∀ c ∈ cs.head?, c = '\n') (h : Idle cs) :
      Idle ('-' :: '-' :: inner ++ cs)
  | blockComment {inner cs} (hin : ¬ ['*', '/'] <:+: inner) (h : Idle cs) :
      Idle ('/' :: '*' :: inner ++ ['*', '/'] ++ cs)

/-- A space is a lexeme by itself. -/
theorem apart_of_isSpace {c : Char} (h : isSpace c = true) : Apart c := by
  simp only [isSpace, Bool.or_eq_true, beq_iff_eq] at h
  rcases h with (((rfl | rfl) | rfl) | rfl) | rfl <;> decide

/-- White space at the end of a text is the last lexeme, unless it stands in quotes, in brackets or
in a comment that goes on. -/
theorem eq_symbol_of_isSpace {cs : List Char} {c : Char} {l : Lexeme}
    (hl : l ∈ (lexemes (cs ++ [c])).getLast?) (hc : isSpace c = true)
    (hmode : l.mode = .plain ∨ l.mode = .lineComment ∧ c = '\n') : l = .symbol c := by
  have hfits := (lexed_lexemes (cs ++ [c])).fits_getLast l hl
  have hapart := apart_of_isSpace hc
  obtain ⟨ls, hls⟩ := List.getLast?_eq_some_iff.mp hl
  have hlast : l.text.getLast? = some c := by
    have hsource := congrArg List.getLast? (source_lexemes (cs ++ [c]))
    rw [hls, source_append, source_cons, source_nil, List.append_nil,
      List.getLast?_append_of_ne_nil _ hfits.text_ne_nil] at hsource
    simpa using hsource
  cases hfits with
  | symbol _ _ _ _ _ => simpa [text] using hlast
  | word _ hw _ =>
    have hword := hw c (List.mem_of_getLast? hlast)
    rw [hapart.not_word] at hword
    cases hword
  | lineComment hin _ =>
    obtain ⟨-, rfl⟩ := hmode.resolve_left (by simp [Lexeme.mode])
    have hmem := List.mem_of_getLast? hlast
    simp [text, hin] at hmem
  | quoted hq _ =>
    have hquote := Option.some.inj ((List.getLast?_concat (l := _ :: _)).symm.trans hlast)
    rw [hquote, hapart.not_quote] at hq
    cases hq
  | bracketed _ =>
    obtain rfl : ']' = c := by simpa [text, List.getLast?_cons] using hlast
    exact absurd hc (by decide)
  | blockComment _ =>
    obtain rfl : '/' = c := by simpa [text, List.getLast?_cons] using hlast
    exact absurd hc (by decide)
  | openQuoted _ | openBracketed _ | openBlockComment _ => simp [Lexeme.mode] at hmode

/-- **A text says nothing** if no lexeme of it does. -/
theorem idle_iff {cs : List Char} : Idle cs ↔ ∀ l ∈ lexemes cs, l.isIdle = true := by
  constructor
  · intro h
    induction h with
    | nil => simp
    | space hc _ ih =>
      rw [lexemes_cons_apart (apart_of_isSpace hc)]
      exact List.forall_mem_cons.mpr ⟨hc, ih⟩
    | lineComment hin hcs _ ih =>
      have hlexemes := lexemes_text_append (Fits.lineComment hin hcs)
      exact hlexemes ▸ List.forall_mem_cons.mpr ⟨rfl, ih⟩
    | @blockComment inner cs hin _ ih =>
      have htext : '/' :: '*' :: inner ++ ['*', '/'] ++ cs =
          (Lexeme.blockComment inner true).text ++ cs := by simp [text]
      rw [htext, lexemes_text_append (.blockComment hin)]
      exact List.forall_mem_cons.mpr ⟨rfl, ih⟩
  · intro h
    induction cs using lexemeInduction with
    | nil => exact .nil
    | cons l rest hf ih =>
      rw [lexemes_text_append hf, List.forall_mem_cons] at h
      obtain ⟨hl, h⟩ := h
      cases hf with
      | lineComment hin hcs => exact .lineComment hin hcs (ih h)
      | blockComment hin =>
        have hidle := Idle.blockComment hin (ih h)
        simpa [text] using hidle
      | symbol _ _ _ _ _ => exact .space hl (ih h)
      | _ => exact absurd hl (by simp [isIdle])

/-- Behind what says nothing the text goes on as before, up to the end of a line. -/
theorem mode_of_isIdle {l : Lexeme} (h : l.isIdle = true) :
    l.mode = .plain ∨ l.mode = .lineComment := by
  cases l <;> simp_all [isIdle, mode]

theorem letters?_of_isBlank {l : Lexeme} (h : l.IsBlank) : l.letters? = none := by
  obtain ⟨c, hc, -⟩ := h
  cases l with
  | word _ => simp [bare, isComment] at hc
  | _ => rfl

theorem words_of_isBlank {ls : List Lexeme} (h : ∀ l ∈ ls, l.IsBlank) : words ls = [] :=
  List.filterMap_eq_nil_iff.mpr fun l hl => letters?_of_isBlank (h l hl)

end Lexeme

/-! ## White space in front of a text -/

/-- White space in front of a piece adds nothing to its text. -/
theorem sql_append_of_isBlank {blanks : List Lexeme} (h : ∀ l ∈ blanks, l.IsBlank)
    (piece : List Lexeme) (terminated : Bool) :
    (Piece.mk (blanks ++ piece) terminated).sql = (Piece.mk piece terminated).sql := by
  have hdrop : ∀ c ∈ source (blanks.map bare), Text.isBlank c = true := by
    intro c hc
    obtain ⟨l, hl, hmem⟩ := List.mem_flatMap.mp hc
    obtain ⟨k, hk, rfl⟩ := List.mem_map.mp hl
    obtain ⟨d, hd, hblank⟩ := h k hk
    rw [hd] at hmem
    rwa [List.mem_singleton.mp hmem]
  rw [Piece.sql, Piece.sql, List.map_append, source_append, trim, trim,
    List.dropWhile_append_of_pos hdrop]

/-- What a list of pieces comes to: the texts of those that are statements, and how they end. -/
def outlines (ps : List Piece) : List (List Char × Bool) :=
  (ps.filter (!·.sql.isEmpty)).map fun p => (p.sql, p.terminated)

theorem outlines_append (ps qs : List Piece) : outlines (ps ++ qs) = outlines ps ++ outlines qs := by
  simp [outlines]

theorem outlines_singleton {p q : Piece} (hsql : p.sql = q.sql) (ht : p.terminated = q.terminated) :
    outlines [p] = outlines [q] :=
  Statement.map_filter_singleton hsql (by rw [hsql, ht])

/-- **White space in front of a text** changes none of its statements. -/
theorem outlines_pieces_append {blanks : List Lexeme} (h : ∀ l ∈ blanks, l.IsBlank)
    (piece ls : List Lexeme) :
    outlines (pieces (blanks ++ piece) ls) = outlines (pieces piece ls) := by
  induction ls generalizing piece with
  | nil =>
    have hblanks : outlines [⟨blanks ++ piece, false⟩] = outlines [⟨piece, false⟩] :=
      outlines_singleton (sql_append_of_isBlank h piece false) rfl
    by_cases hp : piece = []
    · -- Blanks alone are a piece, but no statement.
      subst hp
      by_cases hb : blanks = []
      · simp [hb]
      · have hnil : outlines [⟨[], false⟩] = [] := rfl
        rw [pieces, pieces, if_neg (by simpa using hb), if_pos rfl, hblanks, hnil]
        rfl
    · rw [pieces, pieces, if_neg (by simp [hp]), if_neg hp, hblanks]
  | cons l ls ih =>
    have hwords : words (blanks ++ piece) = words piece := by
      rw [words, List.filterMap_append, ← words, words_of_isBlank h, List.nil_append, ← words]
    rw [pieces, pieces, hwords]
    split
    case isTrue =>
      rw [← List.singleton_append, outlines_append, ← List.singleton_append (l := pieces [] ls),
        outlines_append]
      exact congrArg (· ++ _) (outlines_singleton (sql_append_of_isBlank h piece true) rfl)
    case isFalse =>
      rw [List.append_assoc]
      exact ih (piece ++ [l])

/-! ## Behind a complete text -/

namespace Statement

theorem map_split_outlines (text : String) :
    (split text).map (fun s => (s.sql, s.terminated)) =
      (outlines (pieces [] (lexemes text.toList))).map fun x => (String.ofList x.1, x.2) := by
  rw [map_split_pieces, outlines, List.map_map]
  rfl

/-- **A complete text and what follows it** are split apart. -/
theorem split_append {a b : String} (h : isComplete a = true)
    (hfits : ∀ l ∈ (lexemes a.toList).getLast?, l.Fits b.toList) :
    (split (a ++ b)).map (fun s => (s.sql, s.terminated)) =
      (split a).map (fun s => (s.sql, s.terminated)) ++
        (split b).map fun s => (s.sql, s.terminated) := by
  have hblank := unfinished_of_isComplete h
  have hleft : outlines (pieces [] (lexemes a.toList)) =
      outlines ((pieces [] (lexemes a.toList)).filter (·.terminated)) := by
    conv_lhs => rw [pieces_eq, outlines_append]
    split
    case isTrue => exact List.append_nil _
    case isFalse =>
      have hsql := sql_of_blank hblank false
      simp [outlines, hsql]
  have hright := outlines_pieces_append hblank [] (lexemes b.toList)
  rw [List.append_nil] at hright
  rw [map_split_outlines, map_split_outlines, map_split_outlines, String.toList_append,
    lexemes_append_of_fits hfits, pieces_append_eq, outlines_append, hright, hleft, List.map_append]

end Statement

namespace Scan

variable {s t : Scan}

/-- What a reading holds that decides how the text goes on. -/
structure Alike (s t : Scan) : Prop where
  mode : s.mode = t.mode
  nesting : s.nesting = t.nesting
  settled : s.settled = t.settled

theorem Alike.read (h : s.Alike t) (l : Lexeme) : (s.read l).Alike (t.read l) := by
  obtain ⟨hmode, hnesting, hsettled⟩ := h
  rw [Scan.read, Scan.read, hnesting]
  split
  case isTrue => exact ⟨hmode, rfl, rfl⟩
  case isFalse => exact ⟨rfl, by simp [pass, hnesting], by simp [pass, hsettled]⟩

theorem Alike.foldl_read (h : s.Alike t) (ls : List Lexeme) :
    (ls.foldl Scan.read s).Alike (ls.foldl Scan.read t) := by
  induction ls generalizing s t with
  | nil => exact h
  | cons l ls ih => exact ih (h.read l)

theorem Alike.atEnd (h : s.Alike t) : s.atEnd = t.atEnd := by
  rw [Scan.atEnd, Scan.atEnd, h.mode, h.nesting, h.settled]

/-- A reading that stands between two statements, with white space behind the `;` at most. -/
structure Between (s : Scan) : Prop where
  mode : s.mode = .plain ∨ s.mode = .lineComment
  nesting : s.nesting = {}

/-- What says nothing is no separator. -/
theorem not_separates_of_isIdle (n : Nesting) {l : Lexeme} (hl : l.isIdle = true) :
    ¬ n.separates l := by
  rintro ⟨rfl, -⟩
  exact absurd hl (by decide)

/-- What says nothing changes nothing. -/
theorem Between.read (h : s.Between) {l : Lexeme} (hl : l.isIdle = true) :
    (s.read l).Between ∧ (s.read l).settled = s.settled := by
  rw [Scan.read, if_neg (not_separates_of_isIdle s.nesting hl)]
  refine ⟨⟨mode_of_isIdle hl, ?_⟩, ?_⟩
  · cases l <;> simp_all [isIdle, pass, Nesting.after, h.nesting]
  · cases l <;> simp_all [isIdle, pass, settles]

/-- All that says something is read alike, whatever the last token was. -/
theorem Between.read_alike (hs : s.Between) (ht : t.Between) {l : Lexeme}
    (hl : l.isIdle = false) (hopen : ∀ inner, l ≠ .blockComment inner false)
    (hm : s.mode = t.mode) : (s.read l).Alike (t.read l) := by
  have hnesting : s.nesting = t.nesting := hs.nesting.trans ht.nesting.symm
  rw [Scan.read, Scan.read, hnesting]
  split
  case isTrue => exact ⟨hm, rfl, rfl⟩
  case isFalse =>
    refine ⟨rfl, by simp [pass, hnesting], ?_⟩
    cases l with
    | quoted _ _ _ | bracketed _ _ | word _ => rfl
    | lineComment _ => simp [isIdle] at hl
    | blockComment inner closed =>
      cases closed
      · exact absurd rfl (hopen inner)
      · simp [isIdle] at hl
    | symbol c =>
      have hc : isSpace c = false := hl
      simp [pass, settles, hc]

/-- A text behind a `;` is at its end if it is so by itself, or if it says nothing. -/
theorem Between.atEnd_foldl_read (hs : s.Between) (ht : t.Between) (hm : s.mode = t.mode)
    (hsettled : s.settled = true) (hunsettled : t.settled = false) {ls : List Lexeme}
    (hls : Lexed ls) :
    (ls.foldl Scan.read s).atEnd = true ↔
      (ls.foldl Scan.read t).atEnd = true ∨ ∀ l ∈ ls, l.isIdle = true := by
  induction ls generalizing s t with
  | nil =>
    have hmode := hs.mode
    simp [Scan.atEnd, hs.nesting, hsettled, hmode]
  | cons l ls ih =>
    cases hl : l.isIdle with
    | true =>
      obtain ⟨hs', hsettled'⟩ := hs.read hl
      obtain ⟨ht', hunsettled'⟩ := ht.read hl
      have hm' : (s.read l).mode = (t.read l).mode := by
        rw [Scan.read, Scan.read, if_neg (not_separates_of_isIdle _ hl),
          if_neg (not_separates_of_isIdle _ hl)]
        rfl
      rw [List.foldl_cons, List.foldl_cons,
        ih hs' ht' hm' (hsettled'.trans hsettled) (hunsettled'.trans hunsettled) hls.2,
        List.forall_mem_cons, and_iff_right hl]
    | false =>
      -- The first lexeme that says something: from here on both readings go the same way.
      rw [List.forall_mem_cons, hl]
      simp only [Bool.false_eq_true, false_and, or_false]
      by_cases hopen : ∃ inner, l = .blockComment inner false
      · -- Nothing follows a comment that is left open, and the text is not at its end in there.
        obtain ⟨inner, rfl⟩ := hopen
        have hnil : ls = [] := by
          by_contra hne
          cases hsource : source ls with
          | nil => exact source_ne_nil hls.2 hne hsource
          | cons c cs =>
            have hfits := hls.1
            rw [hsource] at hfits
            cases hfits
        have hsep (n : Nesting) : ¬ n.separates (.blockComment inner false) := by
          rintro ⟨⟨⟩, -⟩
        rw [hnil, List.foldl_cons, List.foldl_cons, Scan.read, Scan.read, if_neg (hsep _),
          if_neg (hsep _)]
        simp [Scan.atEnd, pass, Lexeme.mode]
      · have halike := hs.read_alike ht hl (fun inner he => hopen ⟨inner, he⟩) hm
        rw [List.foldl_cons, List.foldl_cons, (halike.foldl_read ls).atEnd]

/-- With a `;` for its last token and no body open, a reading has read no word since. -/
def Fresh (s : Scan) : Prop := s.settled = true → s.nesting.depth = 0 → s.nesting = {}

theorem Fresh.read (h : s.Fresh) (l : Lexeme) : (s.read l).Fresh := by
  rw [Scan.read]
  split
  case isTrue => exact fun _ _ => rfl
  case isFalse hsep =>
    intro hsettled hdepth
    cases l with
    | quoted _ _ _ | bracketed _ _ | word _ => simp [pass, settles] at hsettled
    | lineComment _ | blockComment _ _ => exact h hsettled hdepth
    | symbol c =>
      by_cases hc : isSpace c = true
      · exact h (by simpa [pass, settles, hc] using hsettled) hdepth
      · -- A `;` that does not separate stands in a body.
        have hc : c = ';' := by simpa [pass, settles, hc] using hsettled
        exact absurd ⟨congrArg _ hc, hdepth⟩ hsep

theorem Fresh.foldl_read (h : s.Fresh) (ls : List Lexeme) : (ls.foldl Scan.read s).Fresh := by
  induction ls generalizing s with
  | nil => exact h
  | cons l ls ih => exact ih (h.read l)

end Scan

section Complete

variable {a b : String}

/-- **A complete text stops between two statements.** -/
theorem between_of_isComplete (h : isComplete a = true) :
    (Scan.run {} a.toList).2.Between ∧ (Scan.run {} a.toList).2.settled = true := by
  have hfresh : (Scan.run {} a.toList).2.Fresh := by
    rw [Scan.run_snd]
    exact Scan.Fresh.foldl_read (fun _ _ => rfl) _
  simp only [isComplete, Scan.atEnd, Bool.and_eq_true, Bool.or_eq_true, beq_iff_eq] at h
  obtain ⟨⟨hmode, hdepth⟩, hsettled⟩ := h
  exact ⟨⟨hmode, hfresh hsettled hdepth⟩, hsettled⟩

/-- A new line may follow a complete text. -/
theorem fits_newline_of_isComplete (h : isComplete a = true) (rest : List Char) :
    ∀ l ∈ (lexemes a.toList).getLast?, l.Fits ('\n' :: rest) := by
  intro l hl
  have hfits := (lexed_lexemes a.toList).fits_getLast l hl
  have hmode := (between_of_isComplete h).1.mode
  rw [mode_run, Option.mem_def.mp hl] at hmode
  rcases hmode with hplain | hline
  · refine hfits.of_neutral (closed_of_mode hplain) ?_
    rintro _ ⟨⟩
    exact apart_newline.toNeutral
  · cases hfits with
    | lineComment hin _ =>
      refine .lineComment hin ?_
      rintro _ ⟨⟩
      rfl
    | _ => cases hline

/-- A complete text that ends with a newline stops outside comments too. -/
theorem fits_of_isComplete_newline (h : isComplete (a ++ "\n") = true) (rest : List Char) :
    ∀ l ∈ (lexemes (a ++ "\n").toList).getLast?, l.Fits rest := by
  intro l hl
  have htext : (a ++ "\n").toList = a.toList ++ ['\n'] := by simp
  have hmode := (between_of_isComplete h).1.mode
  rw [mode_run, Option.mem_def.mp hl] at hmode
  -- The newline belongs to no quote, bracket or block comment, or the text would not be complete.
  have hmode : l.mode = .plain ∨ l.mode = .lineComment ∧ '\n' = '\n' :=
    hmode.imp_right fun hline => ⟨hline, rfl⟩
  rw [htext] at hl
  rw [eq_symbol_of_isSpace hl rfl hmode]
  exact apart_newline.fits rest

/-- **A text on a new line behind a complete one** has its own statements. -/
theorem Statement.split_newline_append (h : isComplete a = true) :
    (split (a ++ "\n" ++ b)).map (fun s => (s.sql, s.terminated)) =
      (split a).map (fun s => (s.sql, s.terminated)) ++
        (split b).map fun s => (s.sql, s.terminated) := by
  have htext : ("\n" ++ b).toList = '\n' :: b.toList := by simp
  have hnewline : ∀ l ∈ [Lexeme.symbol '\n'], l.IsBlank :=
    List.forall_mem_singleton.mpr ⟨'\n', rfl, by decide⟩
  have hpieces : pieces [] (lexemes ("\n" ++ b).toList) =
      pieces ([.symbol '\n'] ++ []) (lexemes b.toList) := by
    rw [htext, lexemes_cons_apart apart_newline, pieces, if_neg (by decide)]
    rfl
  have hsplit : (split ("\n" ++ b)).map (fun s => (s.sql, s.terminated)) =
      (split b).map fun s => (s.sql, s.terminated) := by
    rw [map_split_outlines, map_split_outlines, hpieces, outlines_pieces_append hnewline]
  rw [String.append_assoc, split_append h (htext ▸ fits_newline_of_isComplete h b.toList), hsplit]

/-- A text on a new line behind a complete one leaves it complete if it is complete or says
nothing. -/
theorem isComplete_newline_append (h : isComplete a = true) :
    isComplete (a ++ "\n" ++ b) = true ↔ isComplete b = true ∨ Idle b.toList := by
  have htext : (a ++ "\n" ++ b).toList = a.toList ++ '\n' :: b.toList := by simp
  obtain ⟨hbetween, hsettled⟩ := between_of_isComplete h
  rw [Scan.run_snd] at hbetween hsettled
  obtain ⟨hread, hkept⟩ := hbetween.read (l := .symbol '\n') rfl
  have hmode : (((lexemes a.toList).foldl Scan.read {}).read (.symbol '\n')).mode = .plain := by
    rw [Scan.read, if_neg (Scan.not_separates_of_isIdle _ rfl)]
    rfl
  have hstart : ({} : Scan).Between := ⟨Or.inl rfl, rfl⟩
  rw [isComplete, isComplete, htext, Scan.run_snd, Scan.run_snd,
    lexemes_append_of_fits (fits_newline_of_isComplete h b.toList),
    lexemes_cons_apart apart_newline, List.foldl_append, List.foldl_cons,
    hread.atEnd_foldl_read hstart hmode (hkept.trans hsettled) rfl (lexed_lexemes b.toList),
    idle_iff]

end Complete

/-! ## The shell -/

/-- What a shell holds: the text typed since it last took statements, and the statements taken. -/
structure Shell where
  buffer : String := ""
  taken : List Statement := []

namespace Shell

/-- One more line. Once the text is complete its statements are taken. -/
def enter (shell : Shell) (line : String) : Shell :=
  let buffer := shell.buffer ++ line ++ "\n"
  if isComplete buffer then ⟨"", shell.taken ++ Statement.split buffer⟩
  else { shell with buffer }

/-- The statements taken, and those of what is left. -/
def statements (shell : Shell) : List Statement :=
  shell.taken ++ Statement.split shell.buffer

/-- Lines as they are typed. -/
def typed : List String → String
  | [] => ""
  | line :: lines => line ++ "\n" ++ typed lines

/-- What is typed behind what a shell holds makes the same statements line by line or at once. -/
theorem map_statements_foldl_enter (shell : Shell) (lines : List String) :
    (lines.foldl enter shell).statements.map (fun s => (s.sql, s.terminated)) =
      shell.taken.map (fun s => (s.sql, s.terminated)) ++
        (Statement.split (shell.buffer ++ typed lines)).map fun s => (s.sql, s.terminated) := by
  induction lines generalizing shell with
  | nil => simp [statements, typed]
  | cons line lines ih =>
    have hbuffer : shell.buffer ++ (line ++ "\n" ++ typed lines) =
        shell.buffer ++ line ++ "\n" ++ typed lines := by
      simp only [String.append_assoc]
    rw [List.foldl_cons, ih, typed, hbuffer, enter]
    split
    case isTrue h =>
      rw [Statement.split_append h (fits_of_isComplete_newline h _), List.map_append,
        String.empty_append, List.append_assoc]
    case isFalse => rfl

end Shell

/-- **A shell loses nothing.** Behind a complete text `a` a text `b` on a new line is split by
itself, and the whole is complete if and only if `b` is or says nothing. A shell that takes the
statements whenever its buffer is complete therefore has, with those of what is left, the statements
of all that was typed. -/
theorem shell_composition :
    (∀ a b : String, isComplete a = true →
      (Statement.split (a ++ "\n" ++ b)).map (fun s => (s.sql, s.terminated)) =
        (Statement.split a).map (fun s => (s.sql, s.terminated)) ++
          (Statement.split b).map (fun s => (s.sql, s.terminated)) ∧
      (isComplete (a ++ "\n" ++ b) = true ↔ isComplete b = true ∨ Idle b.toList)) ∧
    ∀ lines : List String,
      (lines.foldl Shell.enter {}).statements.map (fun s => (s.sql, s.terminated)) =
        (Statement.split (Shell.typed lines)).map fun s => (s.sql, s.terminated) := by
  refine ⟨fun a b h => ⟨Statement.split_newline_append h, isComplete_newline_append h⟩,
    fun lines => ?_⟩
  rw [Shell.map_statements_foldl_enter, String.empty_append]
  rfl

/-- A trigger with a comment behind it, and a comment on the next line. -/
theorem shell_composition_trigger :
    isComplete "CREATE TRIGGER t BEGIN SELECT 1; END; -- a" = true ∧
    isComplete "CREATE TRIGGER t BEGIN SELECT 1; END; -- a\n/* b */" = true := by
  have hcomplete : isComplete "CREATE TRIGGER t BEGIN SELECT 1; END; -- a" = true := by decide
  have hinner : ¬ ['*', '/'] <:+: [' ', 'b', ' '] := by decide
  have hidle : Idle "/* b */".toList := .blockComment hinner .nil
  exact ⟨hcomplete, (shell_composition.1 _ "/* b */" hcomplete).2.mpr (Or.inr hidle)⟩

end SqlConsole
