import SqlConsole.Proofs.Statement.Rejoining

/-!
# Texts with a `;` behind them

Whoever puts a `;` behind a text means to end a statement with it. Whether it does depends on where
the text stops. The reading of a text is the reading of its lexemes one by one (`Scan.read`), and
what it is in the middle of are the lexemes behind the last separator (`unfinished`).

* A text that stops outside quotes and comments with no trigger body open is ended by the `;`: its
  statements are all ended then, and it is complete (`map_split_semicolon`, `isComplete_semicolon`).
* A text that stops in a line comment takes the `;` into the comment, which changes nothing
  (`map_split_lineComment`, `isComplete_lineComment`).
-/

namespace SqlConsole

open Text Lexeme

/-! ## The end of a reading -/

namespace Scan

/-- Past a lexeme. -/
def read (s : Scan) (l : Lexeme) : Scan :=
  if s.nesting.separates l then s.separate else s.pass l

theorem runLexemes_snd (s : Scan) (ls : List Lexeme) :
    (runLexemes s ls).2 = ls.foldl read s := by
  induction ls generalizing s with
  | nil => rfl
  | cons l ls ih =>
    rw [runLexemes, List.foldl_cons, read]
    split
    · exact ih s.separate
    · exact ih (s.pass l)

/-- The reading at the end of a text. -/
theorem run_snd (cs : List Char) : (run {} cs).2 = (lexemes cs).foldl read {} := by
  rw [run_eq_runLexemes rfl (Or.inl rfl), runLexemes_snd]

/-- The last lexeme decides the mode. -/
theorem mode_foldl_read {s : Scan} {ls : List Lexeme} (h : Lexed ls)
    (hm : s.mode = .plain ∨ ∀ c ∈ (source ls).head?, c = '\n') :
    (ls.foldl read s).mode = (ls.getLast?.map Lexeme.mode).getD s.mode := by
  induction ls generalizing s with
  | nil => rfl
  | cons l ls ih =>
    -- A separator leaves the mode alone, and is not read inside a comment.
    have hread : (s.read l).mode = l.mode := by
      rw [read]
      split
      case isTrue hsep =>
        have hplain : s.mode = .plain := hm.resolve_right fun hc => by
          have := hc ';' (by rw [hsep.1]; rfl)
          exact absurd this (by decide)
        rw [hsep.1]
        exact hplain
      case isFalse => rfl
    cases ls with
    | nil => exact hread
    | cons k ls =>
      have hnext : (s.read l).mode = .plain ∨ ∀ c ∈ (source (k :: ls)).head?, c = '\n' := by
        rw [hread]
        rcases h.1.mode_cases with hl | ⟨-, hl⟩ | hnil
        · exact Or.inl hl
        · exact Or.inr hl
        · exact absurd hnil (source_ne_nil h.2 (by simp))
      rw [List.foldl_cons, ih h.2 hnext, List.getLast?_cons_cons,
        List.getLast?_eq_some_getLast (List.cons_ne_nil k ls)]
      rfl

end Scan

/-- Where a text stops its last lexeme does. -/
theorem mode_run (cs : List Char) :
    (Scan.run {} cs).2.mode = ((lexemes cs).getLast?.map Lexeme.mode).getD .plain := by
  rw [Scan.run_snd, Scan.mode_foldl_read (lexed_lexemes cs) (Or.inl rfl)]

/-! ## What is behind the last separator -/

/-- The lexemes behind the last separator. -/
def unfinished (piece : List Lexeme) : List Lexeme → List Lexeme
  | [] => piece
  | l :: ls =>
    if l = .symbol ';' ∧ openBodies (words piece) = 0 then unfinished [] ls
    else unfinished (piece ++ [l]) ls

/-- A reading stands behind what is unfinished. -/
theorem Scan.Behind.foldl_read {s : Scan} {piece : List Lexeme} (h : s.Behind piece)
    (ls : List Lexeme) : (ls.foldl Scan.read s).Behind (unfinished piece ls) := by
  induction ls generalizing s piece with
  | nil => exact h
  | cons l ls ih =>
    have hiff : s.nesting.separates l ↔ l = .symbol ';' ∧ openBodies (words piece) = 0 := by
      rw [Nesting.separates, h.depth]
    rw [List.foldl_cons, Scan.read, unfinished]
    by_cases hsep : s.nesting.separates l
    · rw [if_pos hsep, if_pos (hiff.mp hsep)]
      exact ih (Behind.separate s)
    · rw [if_neg hsep, if_neg (mt hiff.mpr hsep)]
      exact ih (h.pass l)

/-- The trigger bodies that are open where a text stops. -/
theorem depth_run (cs : List Char) :
    (Scan.run {} cs).2.nesting.depth = openBodies (words (unfinished [] (lexemes cs))) := by
  have hstart : ({} : Scan).Behind [] := ⟨rfl, rfl, rfl⟩
  rw [Scan.run_snd, (hstart.foldl_read (lexemes cs)).depth]

/-- **Two texts side by side.** The pieces of the first that are ended stay as they are, and the
second goes on with what is unfinished. -/
theorem pieces_append_eq (piece a b : List Lexeme) :
    pieces piece (a ++ b) =
      (pieces piece a).filter (·.terminated) ++ pieces (unfinished piece a) b := by
  induction a generalizing piece with
  | nil => by_cases hp : piece = [] <;> simp [pieces, unfinished, hp]
  | cons l a ih =>
    rw [List.cons_append, pieces, pieces, unfinished]
    split
    · rw [ih [], List.filter_cons_of_pos rfl, List.cons_append]
    · exact ih (piece ++ [l])

/-- The pieces of a text, those that are ended and what is left. -/
theorem pieces_eq (piece ls : List Lexeme) :
    pieces piece ls = (pieces piece ls).filter (·.terminated) ++
      if unfinished piece ls = [] then [] else [⟨unfinished piece ls, false⟩] := by
  conv_lhs => rw [← List.append_nil ls, pieces_append_eq]
  rfl

/-! ## A `;` behind a text -/

theorem Lexeme.closed_of_mode {l : Lexeme} (h : l.mode = .plain) : l.closed = true := by
  cases l with
  | quoted _ _ closed | bracketed _ closed | blockComment _ closed =>
    cases closed
    · simp [Lexeme.mode] at h
    · rfl
  | lineComment _ => simp [Lexeme.mode] at h
  | word _ | symbol _ => rfl

/-- A text that stops outside quotes and comments has a last lexeme with nothing open. -/
theorem closed_getLast_of_mode {cs : List Char} (h : (Scan.run {} cs).2.mode = .plain) :
    ∀ l ∈ (lexemes cs).getLast?, l.closed = true := by
  intro l hl
  rw [mode_run, Option.mem_def.mp hl] at h
  exact closed_of_mode h

namespace Statement

theorem map_split_pieces (text : String) :
    (split text).map (fun s => (s.sql, s.terminated)) =
      (statementPieces text.toList).map fun p => (String.ofList p.sql, p.terminated) := by
  have h := congrArg (List.map fun x : List Char × Bool => (String.ofList x.1, x.2))
    (map_split text)
  rw [List.map_map, List.map_map] at h
  simpa [Function.comp_def] using h

/-- What a piece adds to the statements is a matter of its text. -/
theorem map_filter_singleton {α : Type} {f g : Piece → α} {p q : Piece} (hsql : p.sql = q.sql)
    (hfg : f p = g q) :
    ([p].filter (!·.sql.isEmpty)).map f = ([q].filter (!·.sql.isEmpty)).map g := by
  rw [List.filter_singleton, List.filter_singleton, hsql]
  cases q.sql.isEmpty with
  | true => rfl
  | false => exact congrArg ([·]) hfg

variable {text : String}

/-- The pieces of a text, once a `;` is put behind its last lexeme. -/
theorem pieces_semicolon {cs : List Char} (hlast : ∀ l ∈ (lexemes cs).getLast?, l.closed = true)
    (hdepth : openBodies (words (unfinished [] (lexemes cs))) = 0) :
    pieces [] (lexemes (cs ++ [';'])) =
      (pieces [] (lexemes cs)).filter (·.terminated) ++ [⟨unfinished [] (lexemes cs), true⟩] := by
  rw [lexemes_semicolon hlast, lexemes_nil, pieces_append_eq, pieces, if_pos ⟨rfl, hdepth⟩]
  rfl

/-- **A `;` ends the statement it stands behind.** The statements are the same, all ended. -/
theorem map_split_semicolon (hmode : (Scan.run {} text.toList).2.mode = .plain)
    (hdepth : (Scan.run {} text.toList).2.nesting.depth = 0) :
    (split (text ++ ";")).map (fun s => (s.sql, s.terminated)) =
      (split text).map fun s => (s.sql, true) := by
  have htext : (text ++ ";").toList = text.toList ++ [';'] := by simp
  have hright : (split text).map (fun s => (s.sql, true)) =
      (statementPieces text.toList).map fun p => (String.ofList p.sql, true) := by
    have h := congrArg (List.map fun x : String × Bool => (x.1, true)) (map_split_pieces text)
    rw [List.map_map, List.map_map] at h
    simpa [Function.comp_def] using h
  rw [depth_run] at hdepth
  have hleft := pieces_semicolon (closed_getLast_of_mode hmode) hdepth
  have hparts := pieces_eq [] (lexemes text.toList)
  generalize hended : (pieces [] (lexemes text.toList)).filter (·.terminated) = ended
    at hleft hparts
  rw [map_split_pieces, hright, htext, statementPieces, statementPieces, hleft, hparts,
    List.filter_append, List.filter_append, List.map_append, List.map_append]
  congr 1
  · refine List.map_congr_left fun p hp => ?_
    have hmem := List.mem_of_mem_filter hp
    rw [← hended] at hmem
    rw [(List.mem_filter.mp hmem).2]
  · -- Nothing is left behind the last separator, or what is left is the same text, now ended.
    by_cases hnil : unfinished [] (lexemes text.toList) = []
    · rw [hnil]
      rfl
    · rw [if_neg hnil]
      exact map_filter_singleton rfl rfl

end Statement

/-- A text with a `;` behind it is complete if it stops outside quotes and comments and has no
trigger body open. -/
theorem isComplete_semicolon {text : String} (hmode : (Scan.run {} text.toList).2.mode = .plain)
    (hdepth : (Scan.run {} text.toList).2.nesting.depth = 0) :
    isComplete (text ++ ";") = true := by
  have htext : (text ++ ";").toList = text.toList ++ [';'] := by simp
  have hclosed := closed_getLast_of_mode hmode
  rw [Scan.run_snd] at hmode hdepth
  have hsep : ((lexemes text.toList).foldl Scan.read {}).nesting.separates (.symbol ';') :=
    ⟨rfl, hdepth⟩
  rw [isComplete, htext, Scan.run_snd, lexemes_semicolon hclosed, lexemes_nil, List.foldl_append,
    List.foldl_cons, List.foldl_nil, Scan.read, if_pos hsep]
  simp [Scan.separate, Scan.atEnd, hmode]

/-! ## A `;` in a line comment -/

/-- A text that stops in a line comment has it for its last lexeme. -/
theorem lexemes_of_lineComment {cs : List Char} (h : (Scan.run {} cs).2.mode = .lineComment) :
    ∃ ls inner, lexemes cs = ls ++ [.lineComment inner] := by
  rw [mode_run] at h
  rcases List.eq_nil_or_concat (lexemes cs) with hnil | ⟨ls, l, hl⟩
  · simp [hnil] at h
  · rw [List.concat_eq_append] at hl
    rw [hl, List.getLast?_concat] at h
    cases l with
    | lineComment inner => exact ⟨ls, inner, hl⟩
    | quoted _ _ closed | bracketed _ closed | blockComment _ closed =>
      cases closed <;> simp [Lexeme.mode] at h
    | word _ | symbol _ => simp [Lexeme.mode] at h

/-- A line comment takes in all that is put behind it on its line. -/
theorem lexemes_append_lineComment {cs inner : List Char} {ls : List Lexeme}
    (h : lexemes cs = ls ++ [.lineComment inner]) {more : List Char} (hmore : '\n' ∉ more) :
    lexemes (cs ++ more) = ls ++ [.lineComment (inner ++ more)] := by
  have hlexed := lexed_lexemes cs
  rw [h] at hlexed
  have hin : '\n' ∉ inner := by
    cases hlexed.right.1 with
    | lineComment hin _ => exact hin
  have hfits : Fits (.lineComment (inner ++ more)) [] :=
    .lineComment (by simp [hin, hmore]) (by simp)
  have hsource : cs ++ more = source (ls ++ [.lineComment (inner ++ more)]) := by
    conv_lhs => rw [← source_lexemes cs, h]
    simp [text]
  rw [hsource, lexemes_source (hlexed.replace_last hfits rfl)]

/-- A line comment at the end of a text is the end of its last piece. -/
theorem pieces_lineComment (ls : List Lexeme) (inner : List Char) :
    pieces [] (ls ++ [.lineComment inner]) = (pieces [] ls).filter (·.terminated) ++
      [⟨unfinished [] ls ++ [.lineComment inner], false⟩] := by
  rw [pieces_append_eq, pieces, if_neg (by simp), pieces, if_neg (by simp)]

/-- The statements of a text that stops in a line comment do not depend on what it says. -/
theorem Statement.map_split_lineComment {text : String}
    (hmode : (Scan.run {} text.toList).2.mode = .lineComment) :
    (split (text ++ ";")).map (fun s => (s.sql, s.terminated)) =
      (split text).map fun s => (s.sql, s.terminated) := by
  obtain ⟨ls, inner, hls⟩ := lexemes_of_lineComment hmode
  have htext : (text ++ ";").toList = text.toList ++ [';'] := by simp
  have happend := lexemes_append_lineComment hls (show '\n' ∉ [';'] by simp)
  have hsql (inner : List Char) :
      (Piece.mk (unfinished [] ls ++ [.lineComment inner]) false).sql =
        trim (source ((unfinished [] ls).map bare) ++ [' ']) := by
    simp [Piece.sql, bare, isComment, Lexeme.text]
  rw [map_split_pieces, map_split_pieces, htext, statementPieces, statementPieces, happend, hls,
    pieces_lineComment, pieces_lineComment]
  rw [List.filter_append, List.filter_append, List.map_append, List.map_append]
  congr 1
  exact map_filter_singleton ((hsql _).trans (hsql _).symm) (by rw [hsql, hsql])

/-- A text that stops in a line comment is complete if it was without the `;`. -/
theorem isComplete_lineComment {text : String}
    (hmode : (Scan.run {} text.toList).2.mode = .lineComment) :
    isComplete (text ++ ";") = isComplete text := by
  obtain ⟨ls, inner, hls⟩ := lexemes_of_lineComment hmode
  have htext : (text ++ ";").toList = text.toList ++ [';'] := by simp
  have happend := lexemes_append_lineComment hls (show '\n' ∉ [';'] by simp)
  have hsep (s : Scan) (inner : List Char) : ¬ s.nesting.separates (.lineComment inner) :=
    fun h => nomatch h.1
  rw [isComplete, isComplete, htext, Scan.run_snd, Scan.run_snd, happend, hls, List.foldl_append,
    List.foldl_append, List.foldl_cons, List.foldl_cons, List.foldl_nil, List.foldl_nil, Scan.read,
    Scan.read, if_neg (hsep _ _), if_neg (hsep _ _)]
  rfl

/-! ## Complete texts -/

/-- A lexeme that counts as white space. -/
def Lexeme.IsBlank (l : Lexeme) : Prop := ∃ c, l.bare = .symbol c ∧ Text.isBlank c = true

theorem sql_of_blank {piece : List Lexeme} (h : ∀ l ∈ piece, l.IsBlank) (terminated : Bool) :
    (Piece.mk piece terminated).sql = [] := by
  have hblank : ∀ c ∈ source (piece.map bare), Text.isBlank c = true := by
    intro c hc
    obtain ⟨l, hl, hmem⟩ := List.mem_flatMap.mp hc
    obtain ⟨k, hk, rfl⟩ := List.mem_map.mp hl
    obtain ⟨d, hd, hblank⟩ := h k hk
    rw [hd] at hmem
    rwa [List.mem_singleton.mp hmem]
  have hdrop : (source (piece.map bare)).dropWhile Text.isBlank = [] :=
    List.dropWhile_eq_nil_iff.mpr hblank
  rw [Piece.sql, trim, hdrop]
  rfl

namespace Scan

variable {s : Scan} {piece : List Lexeme}

/-- With a `;` for its last token and no body open, a reading has only white space behind the last
separator. -/
def Settled (s : Scan) (piece : List Lexeme) : Prop :=
  s.settled = true → s.nesting.depth = 0 → ∀ l ∈ piece, l.IsBlank

/-- A lexeme that leaves the last token as it is is white space. -/
theorem Settled.pass (h : s.Settled piece) {l : Lexeme} (hsep : ¬ s.nesting.separates l) :
    (s.pass l).Settled (piece ++ [l]) := by
  intro hsettled hdepth
  have hconcat (hs : s.settled = true) (hd : s.nesting.depth = 0) (hl : l.IsBlank) :
      ∀ k ∈ piece ++ [l], k.IsBlank :=
    List.forall_mem_append.mpr ⟨h hs hd, by simpa using hl⟩
  cases l with
  | quoted _ _ _ | bracketed _ _ | word _ => simp [Scan.pass, settles] at hsettled
  | lineComment _ | blockComment _ _ => exact hconcat hsettled hdepth ⟨' ', rfl, rfl⟩
  | symbol c =>
    by_cases hc : isSpace c = true
    · have hs : s.settled = true := by simpa [Scan.pass, settles, hc] using hsettled
      exact hconcat hs hdepth ⟨c, rfl, isBlank_of_isSpace hc⟩
    · -- A `;` that does not separate stands in a body.
      have hc : c = ';' := by simpa [Scan.pass, settles, hc] using hsettled
      exact absurd ⟨congrArg _ hc, hdepth⟩ hsep

theorem Settled.foldl_read (hbehind : s.Behind piece) (h : s.Settled piece) (ls : List Lexeme) :
    (ls.foldl read s).Settled (unfinished piece ls) := by
  induction ls generalizing s piece with
  | nil => exact h
  | cons l ls ih =>
    have hiff : s.nesting.separates l ↔ l = .symbol ';' ∧ openBodies (words piece) = 0 := by
      rw [Nesting.separates, hbehind.depth]
    rw [List.foldl_cons, read, unfinished]
    by_cases hsep : s.nesting.separates l
    · rw [if_pos hsep, if_pos (hiff.mp hsep)]
      exact ih (.separate s) (by simp [Settled])
    · rw [if_neg hsep, if_neg (mt hiff.mpr hsep)]
      exact ih (hbehind.pass l) (h.pass hsep)

end Scan

/-- What a complete text has behind its last separator is white space. -/
theorem unfinished_of_isComplete {text : String} (h : isComplete text = true) :
    ∀ l ∈ unfinished [] (lexemes text.toList), l.IsBlank := by
  have hend : (Scan.run {} text.toList).2.settled = true ∧
      (Scan.run {} text.toList).2.nesting.depth = 0 := by
    rw [isComplete, Scan.atEnd, Bool.and_eq_true, Bool.and_eq_true, beq_iff_eq] at h
    exact ⟨h.2, h.1.2⟩
  have hstart : ({} : Scan).Behind [] := ⟨rfl, rfl, rfl⟩
  have hsettled := Scan.Settled.foldl_read hstart (by simp [Scan.Settled]) (lexemes text.toList)
  rw [← Scan.run_snd] at hsettled
  exact hsettled hend.1 hend.2

/-- **A complete text has only statements that are ended.** -/
theorem Statement.terminated_of_isComplete {text : String} (h : isComplete text = true) :
    ∀ s ∈ split text, s.terminated = true := by
  intro s hs
  have hmem : (s.sql, s.terminated) ∈ (split text).map fun s => (s.sql, s.terminated) :=
    List.mem_map_of_mem hs
  rw [map_split_pieces] at hmem
  obtain ⟨p, hp, he⟩ := List.mem_map.mp hmem
  obtain ⟨hp, hsql⟩ := List.mem_filter.mp hp
  rw [pieces_eq] at hp
  rw [← (Prod.mk.inj he).2]
  rcases List.mem_append.mp hp with hp | hp
  · exact (List.mem_filter.mp hp).2
  · -- What is left behind the last separator is no statement.
    by_cases hnil : unfinished [] (lexemes text.toList) = []
    · simp [hnil] at hp
    · rw [if_neg hnil, List.mem_singleton] at hp
      rw [hp, sql_of_blank (unfinished_of_isComplete h)] at hsql
      cases hsql

end SqlConsole
