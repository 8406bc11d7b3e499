import SqlConsole.Proofs.Statement.Growth
import SqlConsole.Proofs.Statement.Lines

/-!
# Triggers are not cut

The text of a trigger holds any number of `;`, and none of them separates. What its words open and
close is nested (`Nested`), so the number of open bodies is back at the end of each body to what it
was before (`Nested.foldl_after`), and within a body it is not 0 (`Nested.unsplit`). Both are proved
by induction on the nesting, for any number of bodies that are open around it.

A text is put together from parts, each with white space behind it (`Part`), and what follows a part
is read apart from it. So the lexemes of a trigger are those of its parts (`TriggerText`), and its
`BEGIN` and its `END` are one body more. The first `;` that separates is then the one behind the
`END`, and no beginning of the text is complete before it (`not_isComplete_of_unsplit`).
-/

namespace SqlConsole

open Text Lexeme

/-! ## Nested bodies -/

/-- Whether a word opens a body of a trigger. -/
def opensBody (word : List Char) : Bool :=
  Nesting.spells word "BEGIN" || Nesting.spells word "CASE"

/-- Whether a word closes a body of a trigger. -/
def closesBody (word : List Char) : Bool := Nesting.spells word "END"

/-- **Lexemes with bodies nested in them.** Each `END` closes a body that is opened before it, and
every body is closed. `within` tells whether the lexemes stand within a body themselves: there a `;`
may stand, and `BEGIN` opens a body as `CASE` does. -/
inductive Nested : (within : Bool) → List Lexeme → Prop
  | nil {within : Bool} : Nested within []
  /-- A lexeme that opens and closes nothing. -/
  | other {within : Bool} {l : Lexeme} {ls : List Lexeme}
    (hword : ∀ w ∈ l.letters?, opensBody w = false ∧ closesBody w = false)
    (hsemicolon : l = .symbol ';' → within = true) (hmore : Nested within ls) :
    Nested within (l :: ls)
  /-- A body, with what stands within it. -/
  | body {within : Bool} {first last : List Char} {inner ls : List Lexeme}
    (hfirst : Nesting.spells first "CASE" = true ∨
      within = true ∧ Nesting.spells first "BEGIN" = true)
    (hinner : Nested true inner) (hlast : closesBody last = true) (hmore : Nested within ls) :
    Nested within (.word first :: (inner ++ .word last :: ls))

section Depth

variable {w : List Char} (depth : Nat)

theorem after_of_opensBody (h : opensBody w = true) :
    Nesting.after ⟨.trigger, depth⟩ (.word w) = ⟨.trigger, depth + 1⟩ := by
  rw [opensBody] at h
  rw [Nesting.after, Nesting.read]
  exact if_pos h

/-- The word that closes a body opens none. -/
theorem opensBody_of_closesBody (h : closesBody w = true) : opensBody w = false := by
  simp only [closesBody, opensBody, Nesting.spells, beq_iff_eq] at h ⊢
  rw [h]
  decide

theorem after_of_closesBody (h : closesBody w = true) :
    Nesting.after ⟨.trigger, depth + 1⟩ (.word w) = ⟨.trigger, depth⟩ := by
  have hopens := opensBody_of_closesBody h
  rw [opensBody] at hopens
  rw [closesBody] at h
  simp [Nesting.after, Nesting.read, hopens, h]

theorem after_of_other {l : Lexeme}
    (h : ∀ w ∈ l.letters?, opensBody w = false ∧ closesBody w = false) :
    Nesting.after ⟨.trigger, depth⟩ l = ⟨.trigger, depth⟩ := by
  cases l with
  | word w =>
    obtain ⟨hopens, hcloses⟩ := h w rfl
    rw [opensBody] at hopens
    rw [closesBody] at hcloses
    simp [Nesting.after, Nesting.read, hopens, hcloses]
  | _ => rfl

end Depth

theorem Nesting.not_separates_word (n : Nesting) (w : List Char) : ¬ n.separates (.word w) :=
  fun h => nomatch h.1

theorem Nesting.not_separates_space (n : Nesting) {c : Char} (hc : isSpace c = true) :
    ¬ n.separates (.symbol c) := by
  rintro ⟨hsemicolon, -⟩
  obtain rfl : c = ';' := Lexeme.symbol.inj hsemicolon
  exact absurd hc (by decide)

namespace Nested

variable {within : Bool} {first : List Char} {ls : List Lexeme}

theorem opensBody_first (h : Nesting.spells first "CASE" = true ∨
    within = true ∧ Nesting.spells first "BEGIN" = true) : opensBody first = true := by
  rw [opensBody, Bool.or_eq_true]
  exact h.elim .inr fun h => .inl h.2

/-- **Nested bodies leave none open.** -/
theorem foldl_after (h : Nested within ls) (depth : Nat) :
    ls.foldl Nesting.after ⟨.trigger, depth⟩ = ⟨.trigger, depth⟩ := by
  induction h generalizing depth with
  | nil => rfl
  | other hword _ _ ih => rw [List.foldl_cons, after_of_other depth hword, ih]
  | body hfirst _ hlast _ ihinner ih =>
    rw [List.foldl_cons, List.foldl_append, List.foldl_cons,
      after_of_opensBody depth (opensBody_first hfirst), ihinner, after_of_closesBody depth hlast,
      ih]

/-- **Nothing separates within nested bodies.** -/
theorem unsplit (h : Nested within ls) {depth : Nat} (hdepth : within = true → depth ≠ 0) :
    Unsplit ⟨.trigger, depth⟩ ls := by
  induction h generalizing depth with
  | nil => trivial
  | other hword hsemicolon _ ih =>
    refine ⟨fun hs => hdepth (hsemicolon hs.1) hs.2, ?_⟩
    rw [after_of_other depth hword]
    exact ih hdepth
  | body hfirst hinner hlast _ ihinner ih =>
    refine ⟨Nesting.not_separates_word _ _, ?_⟩
    rw [after_of_opensBody depth (opensBody_first hfirst), unsplit_append,
      hinner.foldl_after (depth + 1)]
    refine ⟨ihinner fun _ => Nat.succ_ne_zero depth, Nesting.not_separates_word _ _, ?_⟩
    rw [after_of_closesBody depth hlast]
    exact ih hdepth

end Nested

/-! ## Parts of a text -/

theorem isWordChar_of_toUpper {c : Char} (h : isWordChar c.toUpper = true) :
    isWordChar c = true := by
  unfold Char.toUpper at h
  split at h
  case isTrue hc =>
    have hlower : c.isLower = true := by
      show (decide ('a'.val ≤ c.val) && decide (c.val ≤ 'z'.val)) = true
      rw [Bool.and_eq_true, decide_eq_true_eq, decide_eq_true_eq]
      exact hc
    have hletter : c.isAlphanum = true := by
      show (c.isUpper || c.isLower || c.isDigit) = true
      rw [hlower, Bool.or_true, Bool.true_or]
    rw [isWordChar, hletter]
    rfl
  case isFalse => exact h

/-- A word of the text that spells a keyword. -/
structure Spelled (keyword : String) (word : List Char) : Prop where
  spells : Nesting.spells word keyword = true
  nonempty : keyword.toList ≠ [] := by decide
  wordChars : keyword.toList.all isWordChar = true := by decide

/-- A keyword is a word if white space or nothing follows. -/
theorem Spelled.fits {keyword : String} {word : List Char} (h : Spelled keyword word)
    {rest : List Char} (hrest : ∀ c ∈ rest.head?, isSpace c = true) : Fits (.word word) rest := by
  have hletters : word.map Char.toUpper = keyword.toList := beq_iff_eq.mp h.spells
  refine .word ?_ ?_ fun c hc => (apart_of_isSpace (hrest c hc)).not_word
  · rintro rfl
    exact h.nonempty hletters.symm
  · intro c hc
    have hmem : c.toUpper ∈ keyword.toList := by
      rw [← hletters]
      exact List.mem_map_of_mem hc
    exact isWordChar_of_toUpper (List.all_eq_true.mp h.wordChars _ hmem)

/-- A keyword with one character of white space behind it. -/
inductive Keyword (keyword : String) : List Char → Prop
  | mk {word : List Char} {c : Char} (hword : Spelled keyword word) (hc : isSpace c = true) :
    Keyword keyword (word ++ [c])

theorem Keyword.exists_lexemes {keyword : String} {cs : List Char} (h : Keyword keyword cs) :
    ∃ word c, Spelled keyword word ∧ isSpace c = true ∧
      ∀ rest, lexemes (cs ++ rest) = .word word :: .symbol c :: lexemes rest := by
  obtain @⟨word, c, hword, hc⟩ := h
  refine ⟨word, c, hword, hc, fun rest => ?_⟩
  have hfits : Fits (.word word) (c :: rest) := hword.fits (by simpa using hc)
  rw [List.append_assoc, List.singleton_append, ← lexemes_cons_apart (apart_of_isSpace hc)]
  exact lexemes_text_append hfits

/-- The lexemes of white space. -/
theorem lexemes_spaces {gap : List Char} (h : ∀ c ∈ gap, isSpace c = true) :
    lexemes gap = gap.map .symbol := by
  induction gap with
  | nil => exact lexemes_nil
  | cons c gap ih =>
    obtain ⟨hc, hgap⟩ := List.forall_mem_cons.mp h
    rw [lexemes_cons_apart (apart_of_isSpace hc), ih hgap, List.map_cons]

/-- A text with one character of white space behind it, where no quote and no comment is open. -/
inductive Part : List Char → Prop
  | mk {cs : List Char} {c : Char} (hc : isSpace c = true)
    (hmode : (Scan.run {} (cs ++ [c])).2.mode = .plain) : Part (cs ++ [c])

/-- **What follows a part is read apart from it.** -/
theorem Part.lexemes_append {cs : List Char} (h : Part cs) (rest : List Char) :
    lexemes (cs ++ rest) = lexemes cs ++ lexemes rest := by
  obtain @⟨cs, c, hc, hmode⟩ := h
  apply lexemes_append_of_fits
  intro l hl
  rw [mode_run, Option.mem_def.mp hl] at hmode
  rw [eq_symbol_of_isSpace hl hc (.inl hmode)]
  exact (apart_of_isSpace hc).fits rest

/-! ## Texts that hold no separator -/

section Unsplit

variable {cs : List Char}

/-- Where nothing separates, the bodies that are open are those that the lexemes have opened. -/
theorem depth_run_of_unsplit (h : Unsplit {} (lexemes cs)) :
    (Scan.run {} cs).2.nesting.depth = ((lexemes cs).foldl Nesting.after {}).depth := by
  have hunfinished : unfinished [] (lexemes cs) = lexemes cs := unfinished_of_unsplit h
  rw [depth_run, hunfinished, depth_foldl_after]

/-- **A `;` behind a text without a separator** ends all of it, if it separates. -/
theorem fragments_semicolon_of_unsplit (h : Unsplit {} (lexemes cs)) (hne : cs ≠ [])
    (hsep : (Scan.run {} cs).2.separates = true) :
    Scan.fragments (cs ++ [';']) =
      [⟨⟨0, byteSize cs⟩, (Piece.mk (lexemes cs) true).sql, true⟩] := by
  obtain ⟨hmode, hdepth⟩ := Scan.separates_iff.mp hsep
  have hunfinished : unfinished [] (lexemes cs) = lexemes cs := unfinished_of_unsplit h
  rw [depth_run] at hdepth
  rw [fragments_eq_place_pieces, lexemes_semicolon (closed_getLast_of_mode hmode), lexemes_nil,
    pieces_concat_separator hdepth, pieces_of_unsplit h (lexemes_ne_nil hne), hunfinished]
  simp [place, source_lexemes]

/-- **No beginning of a text without a separator is complete.** -/
theorem not_isComplete_of_unsplit (h : Unsplit {} (lexemes cs)) {p : List Char} (hp : p <+: cs) :
    isComplete (String.ofList p) = false := by
  by_contra hcomplete
  rw [Bool.not_eq_false] at hcomplete
  obtain ⟨f, hf, ht⟩ := (finished_of_isComplete hcomplete).separated
  rw [String.toList_ofList] at hf
  obtain ⟨x, y, rfl, hsep, -⟩ := exists_separator hf ht
  obtain ⟨more, rfl⟩ := hp
  obtain ⟨hmode, hdepth⟩ := Scan.separates_iff.mp hsep
  rw [List.append_assoc, List.cons_append, lexemes_semicolon (closed_getLast_of_mode hmode),
    unsplit_append] at h
  rw [depth_run_of_unsplit h.1] at hdepth
  exact h.2.1 ⟨rfl, hdepth⟩

end Unsplit

/-! ## Reading part by part -/

/-- A part of a text is read from one nesting to another, and nothing in it separates. -/
def Passes (n : Nesting) (part : List Char) (m : Nesting) : Prop :=
  ∃ ls, (∀ rest, lexemes (part ++ rest) = ls ++ lexemes rest) ∧ Unsplit n ls ∧
    ls.foldl Nesting.after n = m

section Passes

variable {n m k : Nesting} {a b : List Char}

theorem Passes.nil (n : Nesting) : Passes n [] n := ⟨[], fun _ => rfl, trivial, rfl⟩

theorem Passes.trans (h : Passes n a m) (h' : Passes m b k) : Passes n (a ++ b) k := by
  obtain ⟨ls, hls, hunsplit, rfl⟩ := h
  obtain ⟨ls', hls', hunsplit', rfl⟩ := h'
  refine ⟨ls ++ ls', fun rest => ?_, unsplit_append.mpr ⟨hunsplit, hunsplit'⟩, List.foldl_append⟩
  rw [List.append_assoc, hls, hls', List.append_assoc]

theorem Keyword.passes {keyword : String} (h : Keyword keyword a)
    (hread : ∀ w, Nesting.spells w keyword = true → n.read w = m) : Passes n a m := by
  obtain ⟨word, c, hword, hc, hlexemes⟩ := h.exists_lexemes
  refine ⟨[.word word, .symbol c], hlexemes, ?_, hread word hword.spells⟩
  exact ⟨n.not_separates_word word, Nesting.not_separates_space _ hc, trivial⟩

/-- Nested bodies are read whole. -/
theorem Part.passes {within : Bool} {cs : List Char} (h : Part cs)
    (hnested : Nested within (lexemes cs)) {depth : Nat} (hdepth : within = true → depth ≠ 0) :
    Passes ⟨.trigger, depth⟩ cs ⟨.trigger, depth⟩ :=
  ⟨lexemes cs, h.lexemes_append, hnested.unsplit hdepth, hnested.foldl_after depth⟩

end Passes

/-! ## Triggers -/

/-- **The text of a trigger** up to the `;` that ends it, in its parts. All of them but the last two
have a character of white space behind them. -/
structure TriggerText where
  create : List Char
  /-- `TEMP` or `TEMPORARY`, or nothing. -/
  temporary : List Char
  trigger : List Char
  /-- What stands in front of the body. -/
  head : List Char
  first : List Char
  body : List Char
  last : List Char
  /-- White space in front of the `;`. -/
  gap : List Char
  create_keyword : Keyword "CREATE" create
  temporary_keyword : temporary = [] ∨ Keyword "TEMP" temporary ∨ Keyword "TEMPORARY" temporary
  trigger_keyword : Keyword "TRIGGER" trigger
  head_part : Part head
  head_nested : Nested false (lexemes head)
  first_keyword : Keyword "BEGIN" first
  body_part : Part body
  body_nested : Nested true (lexemes body)
  last_spelled : Spelled "END" last
  gap_spaces : ∀ c ∈ gap, isSpace c = true

namespace TriggerText

variable (t : TriggerText)

/-- The words `CREATE [TEMP | TEMPORARY] TRIGGER`. -/
def opening : List Char := t.create ++ (t.temporary ++ t.trigger)

/-- The text up to where its body ends. -/
def front : List Char := t.opening ++ (t.head ++ (t.first ++ t.body))

/-- The text up to the `;`. -/
def whole : List Char := t.front ++ (t.last ++ t.gap)

/-- The first words say that a trigger is created. -/
theorem passes_opening : Passes {} t.opening ⟨.trigger, 0⟩ := by
  have hcreate : Passes {} t.create ⟨.create, 0⟩ :=
    t.create_keyword.passes fun w hw => by simp [Nesting.read, hw]
  have htrigger : Passes ⟨.create, 0⟩ t.trigger ⟨.trigger, 0⟩ := by
    refine t.trigger_keyword.passes fun w hw => ?_
    have hletters : w.map Char.toUpper = "TRIGGER".toList := beq_iff_eq.mp hw
    simp [Nesting.read, Nesting.spells, hletters]
  have htrigger' : Passes ⟨.temporary, 0⟩ t.trigger ⟨.trigger, 0⟩ :=
    t.trigger_keyword.passes fun w hw => by simp [Nesting.read, hw]
  rcases t.temporary_keyword with hnone | htemp | htemporary
  · rw [opening, hnone]
    exact hcreate.trans htrigger
  · have hread : Passes ⟨.create, 0⟩ t.temporary ⟨.temporary, 0⟩ :=
      htemp.passes fun w hw => by simp [Nesting.read, hw]
    exact hcreate.trans (hread.trans htrigger')
  · have hread : Passes ⟨.create, 0⟩ t.temporary ⟨.temporary, 0⟩ :=
      htemporary.passes fun w hw => by simp [Nesting.read, hw]
    exact hcreate.trans (hread.trans htrigger')

/-- **One body is open where the body of a trigger ends**, and nothing separates before. -/
theorem passes_front : Passes {} t.front ⟨.trigger, 1⟩ := by
  have hhead : Passes ⟨.trigger, 0⟩ t.head ⟨.trigger, 0⟩ :=
    t.head_part.passes t.head_nested nofun
  have hfirst : Passes ⟨.trigger, 0⟩ t.first ⟨.trigger, 1⟩ := by
    refine t.first_keyword.passes fun w hw => after_of_opensBody 0 ?_
    rw [opensBody, hw, Bool.true_or]
  have hbody : Passes ⟨.trigger, 1⟩ t.body ⟨.trigger, 1⟩ :=
    t.body_part.passes t.body_nested fun _ => Nat.one_ne_zero
  exact t.passes_opening.trans (hhead.trans (hfirst.trans hbody))

/-- The lexemes of a trigger. The last ones are the word that closes its body and white space. -/
theorem exists_lexemes_whole : ∃ ls, Unsplit {} ls ∧ ls.foldl Nesting.after {} = ⟨.trigger, 1⟩ ∧
    lexemes t.whole = ls ++ .word t.last :: t.gap.map .symbol := by
  obtain ⟨ls, hlexemes, hunsplit, hafter⟩ := t.passes_front
  refine ⟨ls, hunsplit, hafter, ?_⟩
  have hfits : Fits (.word t.last) t.gap :=
    t.last_spelled.fits fun c hc => t.gap_spaces c (List.mem_of_head? hc)
  have hlast : lexemes (t.last ++ t.gap) = .word t.last :: lexemes t.gap :=
    lexemes_text_append hfits
  rw [whole, hlexemes, hlast, lexemes_spaces t.gap_spaces]

/-- **Nothing separates in a trigger.** -/
theorem unsplit_whole : Unsplit {} (lexemes t.whole) := by
  obtain ⟨ls, hunsplit, -, hlexemes⟩ := t.exists_lexemes_whole
  have hgap : Unsplit ((ls.foldl Nesting.after {}).after (.word t.last)) (t.gap.map .symbol) := by
    refine unsplit_of_ne (fun l hl => ?_) _
    obtain ⟨c, hc, rfl⟩ := List.mem_map.mp hl
    intro hsemicolon
    obtain rfl : c = ';' := Lexeme.symbol.inj hsemicolon
    exact absurd (t.gap_spaces ';' hc) (by decide)
  rw [hlexemes, unsplit_append]
  exact ⟨hunsplit, Nesting.not_separates_word _ _, hgap⟩

theorem foldl_after_spaces (n : Nesting) (gap : List Char) :
    (gap.map Lexeme.symbol).foldl Nesting.after n = n := by
  induction gap with
  | nil => rfl
  | cons c gap ih => exact ih

/-- **A `;` behind the text of a trigger separates.** -/
theorem separates_whole : (Scan.run {} t.whole).2.separates = true := by
  obtain ⟨ls, -, hafter, hlexemes⟩ := t.exists_lexemes_whole
  rw [Scan.separates_iff]
  constructor
  · have hmode : ∀ l ∈ Lexeme.word t.last :: t.gap.map .symbol, l.mode = .plain := by
      rw [List.forall_mem_cons, List.forall_mem_map]
      exact ⟨rfl, fun _ _ => rfl⟩
    obtain ⟨l, hl⟩ := Option.isSome_iff_exists.mp
      (List.getLast?_isSome.mpr (List.cons_ne_nil (Lexeme.word t.last) (t.gap.map .symbol)))
    rw [mode_run, hlexemes, List.getLast?_append_of_ne_nil _ (List.cons_ne_nil _ _), hl]
    exact hmode l (List.mem_of_getLast? hl)
  · rw [depth_run_of_unsplit t.unsplit_whole, hlexemes, List.foldl_append, hafter,
      List.foldl_cons, after_of_closesBody 0 t.last_spelled.spells, foldl_after_spaces]

/-- A trigger has a text, for it holds a word. -/
theorem sql_whole_ne_nil : (Piece.mk (lexemes t.whole) true).sql ≠ [] := by
  intro hsql
  obtain ⟨ls, -, -, hlexemes⟩ := t.exists_lexemes_whole
  have hblank := isBlank_of_trim_eq_nil hsql
  have hletters : t.last.map Char.toUpper = "END".toList := beq_iff_eq.mp t.last_spelled.spells
  cases hlast : t.last with
  | nil => simp [hlast] at hletters
  | cons c cs =>
    have hmem : c ∈ source ((lexemes t.whole).map bare) := by
      rw [hlexemes, hlast]
      simp [bare, isComment, text]
    have hupper : c.toUpper = 'E' := by
      rw [hlast] at hletters
      exact (List.cons.inj hletters).1
    rw [toUpper_of_isBlank (hblank c hmem)] at hupper
    exact absurd (hupper ▸ hblank c hmem) (by decide)

theorem whole_ne_nil : t.whole ≠ [] := by
  intro hnil
  have hsql := t.sql_whole_ne_nil
  rw [hnil, lexemes_nil] at hsql
  exact hsql rfl

end TriggerText

/-- **A trigger is one statement.** A text that begins with a trigger and a `;` behind its `END` has
for its first statement all that stands in front of this `;`, whatever the trigger holds. What
follows is split as if it stood alone. No beginning of the trigger is complete without the `;`. -/
theorem Statement.split_trigger (t : TriggerText) (rest : List Char) :
    split (String.ofList (t.whole ++ ';' :: rest)) =
        ⟨⟨0, byteSize t.whole⟩, String.ofList (Piece.mk (lexemes t.whole) true).sql, true⟩ ::
          (split (String.ofList rest)).map (shift (byteSize t.whole + 1)) ∧
      ∀ p, p <+: t.whole → isComplete (String.ofList p) = false := by
  have hsize : byteSize (t.whole ++ [';']) = byteSize t.whole + 1 := by
    rw [byteSize_append]
    rfl
  have hsql : (Piece.mk (lexemes t.whole) true).sql.isEmpty = false := by
    simpa using t.sql_whole_ne_nil
  have hfirst : split (String.ofList (t.whole ++ [';'])) =
      [⟨⟨0, byteSize t.whole⟩, String.ofList (Piece.mk (lexemes t.whole) true).sql, true⟩] := by
    rw [split, String.toList_ofList,
      fragments_semicolon_of_unsplit t.unsplit_whole t.whole_ne_nil t.separates_whole,
      List.filter_singleton, hsql]
    rfl
  refine ⟨?_, fun p hp => not_isComplete_of_unsplit t.unsplit_whole hp⟩
  rw [split_separator t.separates_whole, hfirst, hsize, List.singleton_append]

/-- A `CASE` with a `;` in front of the body, and within the body a `;`, a quoted `END`, and another
`CASE`. -/
def nestedTrigger : TriggerText where
  create := "Create".toList ++ ['\n']
  temporary := "TEMP".toList ++ [' ']
  trigger := "trigger".toList ++ [' ']
  head := "r CASE;END".toList ++ ['\t']
  first := "begin".toList ++ [' ']
  body := "x;case'END'end;--".toList ++ ['\n']
  last := "End".toList
  gap := "\n ".toList
  create_keyword := .mk { spells := by decide } rfl
  temporary_keyword := .inr (.inl (.mk { spells := by decide } rfl))
  trigger_keyword := .mk { spells := by decide } rfl
  head_part := .mk rfl (by decide)
  head_nested := by
    have hlexemes : lexemes ("r CASE;END".toList ++ ['\t']) =
        .word ['r'] :: .symbol ' ' :: .word "CASE".toList ::
          ([.symbol ';'] ++ .word "END".toList :: [.symbol '\t']) := by decide +kernel
    rw [hlexemes]
    exact .other (by decide) nofun <| .other (by decide) nofun <|
      .body (.inl (by decide)) (.other (by decide) (fun _ => rfl) .nil) (by decide) <|
      .other (by decide) nofun .nil
  first_keyword := .mk { spells := by decide } rfl
  body_part := .mk rfl (by decide)
  body_nested := by
    have hlexemes : lexemes ("x;case'END'end;--".toList ++ ['\n']) =
        .word ['x'] :: .symbol ';' :: .word "case".toList ::
          ([.quoted '\'' "END".toList true] ++ .word "end".toList ::
            [.symbol ';', .lineComment [], .symbol '\n']) := by decide +kernel
    rw [hlexemes]
    exact .other (by decide) nofun <| .other (by decide) (fun _ => rfl) <|
      .body (.inl (by decide)) (.other (by decide) nofun .nil) (by decide) <|
      .other (by decide) (fun _ => rfl) <| .other (by decide) nofun <| .other (by decide) nofun .nil
  last_spelled := { spells := by decide }
  gap_spaces := List.all_eq_true.mp (by decide)

theorem Statement.split_trigger_nested :
    (split (String.ofList (nestedTrigger.whole ++ ';' :: "SELECT 1".toList))).map (·.span) =
        [⟨0, 60⟩, ⟨61, 69⟩] ∧
      isComplete "Create\nTEMP trigger r CASE;END\tbegin x;" = false := by
  obtain ⟨hsplit, hcomplete⟩ := split_trigger nestedTrigger "SELECT 1".toList
  refine ⟨?_, hcomplete "Create\nTEMP trigger r CASE;END\tbegin x;".toList (by decide)⟩
  rw [hsplit]
  decide +kernel

end SqlConsole
