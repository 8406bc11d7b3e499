import SqlConsole.Proofs.Statement.Ending

/-!
# Texts of one statement a line

A text that holds one whole statement and leaves nothing open (`SelfContained`) can be put on a line
with a `;` behind it. Any number of such lines make a text whose statements are those of the lines,
one each and all ended (`map_split_join`), and which is complete (`isComplete_join`). Whatever
stands in a line, it ends where its `;` does.
-/

namespace SqlConsole

open Text Lexeme

/-- A text that holds one statement, has no `;` behind it and leaves nothing open. -/
structure SelfContained (text : String) : Prop where
  mode : (Scan.run {} text.toList).2.mode = .plain
  depth : (Scan.run {} text.toList).2.nesting.depth = 0
  unended : ∀ f ∈ Scan.fragments text.toList, f.terminated = false
  nonblank : Statement.split text ≠ []

instance (text : String) : Decidable (SelfContained text) :=
  decidable_of_iff
    ((Scan.run {} text.toList).2.mode = .plain ∧ (Scan.run {} text.toList).2.nesting.depth = 0 ∧
      (∀ f ∈ Scan.fragments text.toList, f.terminated = false) ∧ Statement.split text ≠ [])
    ⟨fun ⟨a, b, c, d⟩ => ⟨a, b, c, d⟩, fun ⟨a, b, c, d⟩ => ⟨a, b, c, d⟩⟩

/-! ## Pieces without a separator -/

/-- If no piece is ended, nothing separates. -/
theorem unsplit_of_pieces {piece ls : List Lexeme}
    (h : ∀ p ∈ pieces piece ls, p.terminated = false) :
    Unsplit (piece.foldl Nesting.after {}) ls := by
  induction ls generalizing piece with
  | nil => trivial
  | cons l ls ih =>
    rw [pieces] at h
    by_cases hsep : l = .symbol ';' ∧ openBodies (words piece) = 0
    · rw [if_pos hsep] at h
      exact absurd (h _ List.mem_cons_self) (by simp)
    · rw [if_neg hsep] at h
      refine ⟨fun hs => hsep ⟨hs.1, ?_⟩, ?_⟩
      · rw [← depth_foldl_after]
        exact hs.2
      · simpa using ih h

theorem unfinished_of_unsplit {piece ls : List Lexeme}
    (h : Unsplit (piece.foldl Nesting.after {}) ls) : unfinished piece ls = piece ++ ls := by
  induction ls generalizing piece with
  | nil => rw [unfinished, List.append_nil]
  | cons l ls ih =>
    have hsep : ¬ (l = .symbol ';' ∧ openBodies (words piece) = 0) := by
      rw [← depth_foldl_after]
      exact h.1
    have hafter : Unsplit ((piece ++ [l]).foldl Nesting.after {}) ls := by simpa using h.2
    rw [unfinished, if_neg hsep, ih hafter, List.append_assoc, List.singleton_append]

theorem pieces_of_unsplit {ls : List Lexeme} (h : Unsplit {} ls) (hne : ls ≠ []) :
    pieces [] ls = [⟨ls, false⟩] := by
  have happend : pieces [] (ls ++ []) = pieces ([] ++ ls) [] := pieces_append h
  rw [List.append_nil, List.nil_append] at happend
  rw [happend, pieces, if_neg hne]

namespace SelfContained

variable {text : String}

theorem unsplit (h : SelfContained text) : Unsplit {} (lexemes text.toList) := by
  suffices hpieces : ∀ p ∈ pieces [] (lexemes text.toList), p.terminated = false from
    unsplit_of_pieces hpieces
  intro p hp
  have hmem : (p.sql, p.terminated) ∈
      (place 0 (pieces [] (lexemes text.toList))).map fun f => (f.sql, f.terminated) := by
    rw [map_place]
    exact List.mem_map_of_mem hp
  obtain ⟨f, hf, he⟩ := List.mem_map.mp hmem
  rw [← fragments_eq_place_pieces] at hf
  exact (congrArg Prod.snd he).symm.trans (h.unended f hf)

theorem unfinished_eq (h : SelfContained text) :
    unfinished [] (lexemes text.toList) = lexemes text.toList :=
  unfinished_of_unsplit h.unsplit

theorem openBodies_eq (h : SelfContained text) : openBodies (words (lexemes text.toList)) = 0 := by
  rw [← h.unfinished_eq, ← depth_run]
  exact h.depth

theorem last (h : SelfContained text) : ∀ l ∈ (lexemes text.toList).getLast?, l.closed = true :=
  closed_getLast_of_mode h.mode

theorem pieces_eq (h : SelfContained text) :
    pieces [] (lexemes text.toList) = [⟨lexemes text.toList, false⟩] := by
  have hne : lexemes text.toList ≠ [] := by
    intro hnil
    refine h.nonblank (List.eq_nil_of_length_eq_zero ?_)
    rw [Statement.length_split, statementPieces, hnil]
    rfl
  exact pieces_of_unsplit h.unsplit hne

theorem sql_ne_nil (h : SelfContained text) :
    (Piece.mk (lexemes text.toList) false).sql ≠ [] := by
  intro hsql
  refine h.nonblank (List.eq_nil_of_length_eq_zero ?_)
  rw [Statement.length_split, statementPieces, h.pieces_eq, List.filter_singleton, hsql]
  rfl

/-- The statement of the text. -/
theorem map_split (h : SelfContained text) :
    (Statement.split text).map (·.sql) =
      [String.ofList (Piece.mk (lexemes text.toList) false).sql] := by
  have hmap := congrArg (List.map Prod.fst) (Statement.map_split_pieces text)
  have hsql : (Piece.mk (lexemes text.toList) false).sql.isEmpty = false := by
    simpa using h.sql_ne_nil
  rw [List.map_map, List.map_map, statementPieces, h.pieces_eq, List.filter_singleton, hsql] at hmap
  exact hmap

end SelfContained

/-! ## Lines -/

/-- The white space in front of a statement is none of its text. -/
theorem sql_newline (ls : List Lexeme) (terminated : Bool) :
    (Piece.mk (.symbol '\n' :: ls) terminated).sql = (Piece.mk ls terminated).sql := by
  simp [Piece.sql, bare, isComment, Lexeme.text, trim, isBlank]

/-- The lines behind the first. -/
def moreLines (texts : List String) : List Char :=
  texts.flatMap fun text => '\n' :: (text.toList ++ [';'])

theorem toList_join_lines (text : String) (texts : List String) :
    (join "\n" ((text :: texts).map (· ++ ";"))).toList =
      text.toList ++ ';' :: moreLines texts := by
  have hnewline : "\n".toList = ['\n'] := by simp
  rw [join, String.toList_ofList, List.map_map, List.map_cons, joined_cons, hnewline,
    List.flatMap_map, moreLines]
  simp

section

variable {text : String} {texts : List String}

/-- A line is the end of a piece. -/
theorem pieces_line {piece : List Lexeme} (hpiece : piece.foldl Nesting.after {} = {})
    (h : SelfContained text) (rest : List Char) :
    pieces piece (lexemes (text.toList ++ ';' :: rest)) =
      ⟨piece ++ lexemes text.toList, true⟩ :: pieces [] (lexemes rest) := by
  have hunsplit : Unsplit (piece.foldl Nesting.after {}) (lexemes text.toList) := by
    rw [hpiece]
    exact h.unsplit
  have hdepth : openBodies (words (piece ++ lexemes text.toList)) = 0 := by
    rw [← depth_foldl_after, List.foldl_append, hpiece, depth_foldl_after]
    exact h.openBodies_eq
  rw [lexemes_semicolon h.last, pieces_append hunsplit, pieces, if_pos ⟨rfl, hdepth⟩]

theorem pieces_moreLines (h : ∀ text ∈ texts, SelfContained text) :
    pieces [] (lexemes (moreLines texts)) =
      texts.map fun text => ⟨.symbol '\n' :: lexemes text.toList, true⟩ := by
  induction texts with
  | nil => simp [moreLines, pieces]
  | cons text texts ih =>
    obtain ⟨htext, htexts⟩ := List.forall_mem_cons.mp h
    have hlines : moreLines (text :: texts) =
        '\n' :: (text.toList ++ ';' :: moreLines texts) := by
      simp [moreLines]
    rw [hlines, lexemes_cons_apart apart_newline, pieces, if_neg (by simp), List.nil_append,
      pieces_line rfl htext, ih htexts]
    rfl

/-- The pieces of lines, all of which are statements. -/
theorem statementPieces_lines (h : ∀ t ∈ text :: texts, SelfContained t) :
    statementPieces (text.toList ++ ';' :: moreLines texts) =
      ⟨lexemes text.toList, true⟩ ::
        texts.map fun text => ⟨.symbol '\n' :: lexemes text.toList, true⟩ := by
  obtain ⟨htext, htexts⟩ := List.forall_mem_cons.mp h
  rw [statementPieces, pieces_line rfl htext, pieces_moreLines htexts, List.nil_append,
    List.filter_eq_self]
  refine List.forall_mem_cons.mpr ⟨?_, List.forall_mem_map.mpr fun t ht => ?_⟩
  · simpa [Piece.sql] using htext.sql_ne_nil
  · rw [sql_newline]
    simpa [Piece.sql] using (htexts t ht).sql_ne_nil

namespace Statement

/-- **The statements of lines are those of the lines**, one each, and all ended. -/
theorem map_split_join (h : ∀ text ∈ texts, SelfContained text) :
    (split (join "\n" (texts.map (· ++ ";")))).map (fun s => ([s.sql], s.terminated)) =
      texts.map fun text => ((split text).map (·.sql), true) := by
  cases texts with
  | nil => rfl
  | cons text texts =>
    obtain ⟨htext, htexts⟩ := List.forall_mem_cons.mp h
    have hmap := congrArg (List.map fun x : String × Bool => ([x.1], x.2))
      (map_split_pieces (join "\n" ((text :: texts).map (· ++ ";"))))
    rw [toList_join_lines, statementPieces_lines h, List.map_map, List.map_map] at hmap
    refine hmap.trans ?_
    rw [List.map_cons, List.map_cons, htext.map_split, List.map_map]
    refine congrArg _ (List.map_congr_left fun t ht => ?_)
    rw [(htexts t ht).map_split]
    exact congrArg (fun cs => ([String.ofList cs], true)) (sql_newline (lexemes t.toList) true)

end Statement

/-! ## The end of the last line -/

namespace Scan

variable {s : Scan}

/-- A reading that begins a statement behind a `;`. -/
structure Rested (s : Scan) : Prop where
  behind : s.Behind []
  mode : s.mode = .plain
  settled : s.settled = true

theorem Rested.atEnd (h : s.Rested) : s.atEnd = true := by
  have hdepth : s.nesting.depth = 0 := h.behind.depth
  simp [Scan.atEnd, h.mode, h.settled, hdepth]

/-- A line is read to its `;`, which separates. -/
theorem rested_line (hmode : s.mode = .plain) {piece : List Lexeme} (hbehind : s.Behind piece)
    (hpiece : piece.foldl Nesting.after {} = {}) (h : SelfContained text) :
    ((lexemes text.toList ++ [Lexeme.symbol ';']).foldl read s).Rested := by
  have hunsplit : Unsplit (piece.foldl Nesting.after {}) (lexemes text.toList) := by
    rw [hpiece]
    exact h.unsplit
  have hend := hbehind.foldl_read (lexemes text.toList)
  rw [unfinished_of_unsplit hunsplit] at hend
  have hdepth : ((lexemes text.toList).foldl read s).nesting.depth = 0 := by
    rw [hend.depth, ← depth_foldl_after, List.foldl_append, hpiece, depth_foldl_after]
    exact h.openBodies_eq
  have hplain : ((lexemes text.toList).foldl read s).mode = .plain := by
    rw [mode_foldl_read (lexed_lexemes _) (Or.inl hmode)]
    cases hlast : (lexemes text.toList).getLast? with
    | none => exact hmode
    | some l => exact mode_of_closed (h.last l hlast)
  rw [List.foldl_append, List.foldl_cons, List.foldl_nil, read, if_pos ⟨rfl, hdepth⟩]
  exact ⟨.separate _, hplain, rfl⟩

theorem rested_moreLines (hs : s.Rested) (h : ∀ text ∈ texts, SelfContained text) :
    ((lexemes (moreLines texts)).foldl read s).Rested := by
  induction texts generalizing s with
  | nil => simpa [moreLines] using hs
  | cons text texts ih =>
    obtain ⟨htext, htexts⟩ := List.forall_mem_cons.mp h
    have hlines : moreLines (text :: texts) =
        '\n' :: (text.toList ++ ';' :: moreLines texts) := by
      simp [moreLines]
    have hread : s.read (.symbol '\n') = s.pass (.symbol '\n') :=
      if_neg fun h => absurd h.1 (by decide)
    have hline := rested_line (s := s.pass (.symbol '\n')) rfl (hs.behind.pass _) rfl htext
    rw [hlines, lexemes_cons_apart apart_newline, lexemes_semicolon htext.last, List.foldl_cons,
      hread, List.append_cons, List.foldl_append]
    exact ih hline htexts

end Scan

/-- **Lines are complete.** -/
theorem isComplete_join (hne : texts ≠ []) (h : ∀ text ∈ texts, SelfContained text) :
    isComplete (join "\n" (texts.map (· ++ ";"))) = true := by
  obtain ⟨text, texts, rfl⟩ := List.exists_cons_of_ne_nil hne
  obtain ⟨htext, htexts⟩ := List.forall_mem_cons.mp h
  have hstart : ({} : Scan).Behind [] := ⟨rfl, rfl, rfl⟩
  have hline := Scan.rested_line rfl hstart rfl htext
  rw [isComplete, toList_join_lines, Scan.run_snd, lexemes_semicolon htext.last,
    List.append_cons, List.foldl_append]
  exact (Scan.rested_moreLines hline htexts).atEnd

end

end SqlConsole
