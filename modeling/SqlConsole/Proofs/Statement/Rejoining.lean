import SqlConsole.Proofs.Statement.Cutting
import SqlConsole.Proofs.Statement.Trimming
import SqlConsole.Statement.Split

/-!
# Statements joined again

`Statement.wellCut` asks of the statements of a text that, joined by `;`, they are split into as
many again. `wellCut_iff` says when they are, and that all else `wellCut` asks holds of every text.

A statement's text is not all that the scanner read: it was trimmed, and a no-break space is a
letter to the scanner. So ` CREATE TRIGGER` behind such a space is the text of no trigger, and
becomes one when the statement is read a second time. From then on the statement goes on until its
bodies are closed, across the statements that follow it. This is all that can go wrong: a text is
well cut if and only if each of its statements that another one follows is complete by itself.
-/

namespace SqlConsole

open Text Lexeme

/-! ## The text of a statement -/

theorem Lexeme.isComment_bare (l : Lexeme) : l.bare.isComment = false := by
  cases l <;> rfl

theorem unsplit_map_bare {n : Nesting} {ls : List Lexeme} (h : Unsplit n ls) :
    Unsplit n (ls.map Lexeme.bare) := by
  induction ls generalizing n with
  | nil => trivial
  | cons l ls ih =>
    have hafter : n.after l.bare = n.after l := by cases l <;> rfl
    refine ⟨fun hs => h.1 ⟨?_, hs.2⟩, hafter ▸ ih h.2⟩
    have hl := hs.1
    cases l with
    | lineComment _ | blockComment _ _ => simp [Lexeme.bare, Lexeme.isComment] at hl
    | _ => exact hl

/-- A text that may stand as a statement: there is something in it, it is trimmed and has no
comments, and it is not cut when it is read again. -/
structure Standalone (cs : List Char) : Prop where
  ne_nil : cs ≠ []
  trimmed : trim cs = cs
  bare : ∀ l ∈ lexemes cs, l.isComment = false
  unsplit : Unsplit {} (lexemes cs)

section Trimming

variable {ls : List Lexeme}

theorem mem_append_of_words {t post : List Lexeme} (ht : ∀ l ∈ t, ∃ letters, l = .word letters)
    {P : Lexeme → Prop} (hword : ∀ letters, P (.word letters)) (hpost : ∀ l ∈ post, P l) :
    ∀ l ∈ t ++ post, P l := by
  intro l hl
  rcases List.mem_append.mp hl with hl | hl
  · obtain ⟨letters, rfl⟩ := ht l hl
    exact hword letters
  · exact hpost l hl

/-- Lexemes after their first blanks were dropped: what held of all of them still does. -/
theorem dropBlanks_spec (h : Lexed ls) (hu : Unsplit {} ls) :
    Unsplit {} (lexemes ((source ls).dropWhile isBlank)) ∧
      ∀ P : Lexeme → Prop, (∀ letters, P (.word letters)) → (∀ l ∈ ls, P l) →
        ∀ l ∈ lexemes ((source ls).dropWhile isBlank), P l := by
  obtain ⟨pre, t, post, rfl, ht, hn⟩ := lexemes_dropBlanks h
  have hwords : ∀ l ∈ t, ∃ letters, l = .word letters := by
    rcases hn with ⟨-, rfl⟩ | ⟨-, hwords⟩
    · simp
    · exact hwords
  rw [ht]
  refine ⟨?_, fun P hword hP => mem_append_of_words hwords hword fun l hl => hP l (by simp [hl])⟩
  have hpost := (unsplit_append.mp hu).2
  -- Without a word before it the rest begins a statement as before. With one it is the rest of a
  -- statement of another kind, and has no `;` at all.
  rcases hn with ⟨hpre, rfl⟩ | ⟨hpre, -⟩
  · rwa [hpre] at hpost
  · rw [hpre] at hpost
    exact unsplit_of_ne (mem_append_of_words hwords (by simp) hpost.ne_semicolon) _

/-- **Trimming keeps a statement in one piece**, and what held of its lexemes. -/
theorem trim_spec (h : Lexed ls) (hc : ∀ l ∈ ls, l.isComment = false) (hu : Unsplit {} ls) :
    Unsplit {} (lexemes (trim (source ls))) ∧
      (∀ l ∈ lexemes (trim (source ls)), l.isComment = false) ∧
      ((∀ l ∈ ls, l.closed = true) → ∀ l ∈ lexemes (trim (source ls)), l.closed = true) := by
  obtain ⟨hdrop, hkeep⟩ := dropBlanks_spec h hu
  have hcomment := hkeep (·.isComment = false) (fun _ => rfl) hc
  obtain ⟨pre, t, post, hsplit, htrim, ht⟩ := lexemes_trimRight (lexed_lexemes _) hcomment
  rw [source_lexemes] at htrim
  have hsub : ∀ l ∈ pre, l ∈ lexemes ((source ls).dropWhile isBlank) := fun l hl => by
    rw [hsplit]; exact List.mem_append_left _ hl
  rw [trim, htrim]
  refine ⟨unsplit_append.mpr ⟨?_, ?_⟩, ?_, ?_⟩
  · rw [hsplit] at hdrop
    exact (unsplit_append.mp hdrop).1
  · exact unsplit_of_ne (fun l hl => (ht l hl).2.1 ';') _
  · exact List.forall_mem_append.mpr ⟨fun l hl => hcomment l (hsub l hl), fun l hl => (ht l hl).1⟩
  · intro hclosed
    have hall := hkeep (·.closed = true) (fun _ => rfl) hclosed
    refine List.forall_mem_append.mpr ⟨fun l hl => hall l (hsub l hl), fun l hl => ?_⟩
    obtain ⟨k, hk, he⟩ := (ht l hl).2.2
    rw [he]
    exact hall k (by rw [hsplit]; exact List.mem_append_right _ hk)

end Trimming

namespace Piece

variable {p : Piece}

theorem Cut.trim_spec (h : p.Cut) :
    Unsplit {} (Lexeme.lexemes p.sql) ∧ (∀ l ∈ Lexeme.lexemes p.sql, l.isComment = false) ∧
      ((∀ l ∈ p.lexemes.map bare, l.closed = true) →
        ∀ l ∈ Lexeme.lexemes p.sql, l.closed = true) :=
  SqlConsole.trim_spec h.lexed.bare
    (List.forall_mem_map.mpr fun l _ => isComment_bare l) (unsplit_map_bare h.unsplit)

/-- **A statement can be read again by itself.** -/
theorem Cut.standalone (h : p.Cut) (hne : p.sql ≠ []) : Standalone p.sql where
  ne_nil := hne
  trimmed := trim_trim _
  bare := h.trim_spec.2.1
  unsplit := h.trim_spec.1

theorem Cut.closed_sql (h : p.Cut) (ht : p.terminated = true) :
    ∀ l ∈ Lexeme.lexemes p.sql, l.closed = true := by
  refine h.trim_spec.2.2 (List.forall_mem_map.mpr fun l hl => ?_)
  cases hc : l.isComment with
  | true => simp [Lexeme.bare, hc, Lexeme.closed]
  | false =>
    rw [Lexeme.bare, hc]
    exact h.closed ht l hl hc

end Piece

/-! ## Statements behind each other -/

/-- Nothing is open at the end of a text. -/
def Closed (cs : List Char) : Prop := ∀ l ∈ lexemes cs, l.closed = true

/-- The trigger bodies that a text leaves open, taken as a statement. -/
def bodies (cs : List Char) : Nat := openBodies (words (lexemes cs))

section Joining

theorem Closed.last {cs : List Char} (h : Closed cs) :
    ∀ l ∈ (lexemes cs).getLast?, l.closed = true :=
  fun l hl => h l (List.mem_of_getLast? hl)

/-- A `;` is a lexeme of its own behind a text that is not open at its end. -/
theorem lexemes_semicolon {cs : List Char}
    (hlast : ∀ l ∈ (lexemes cs).getLast?, l.closed = true) (rest : List Char) :
    lexemes (cs ++ ';' :: rest) = lexemes cs ++ .symbol ';' :: lexemes rest :=
  lexemes_append_apart hlast apart_semicolon rest

theorem lexemes_joined {s : List Char} (h : Closed s) (t : List Char) (ss : List (List Char)) :
    lexemes (joined [';'] (s :: t :: ss)) =
      lexemes s ++ .symbol ';' :: lexemes (joined [';'] (t :: ss)) := by
  rw [joined, List.append_assoc, List.singleton_append, lexemes_semicolon h.last]

theorem lexemes_ne_nil {cs : List Char} (h : cs ≠ []) : lexemes cs ≠ [] := by
  intro hnil
  rw [← source_lexemes cs, hnil] at h
  exact h rfl

theorem words_concat_semicolon (ls : List Lexeme) : words (ls ++ [.symbol ';']) = words ls := by
  simp [words, letters?]

/-- A statement is not cut at the start of a piece, nor where the piece has left a body open. -/
theorem Standalone.unsplit_behind {s : List Char} (h : Standalone s) {piece : List Lexeme}
    (hp : piece = [] ∨ openBodies (words piece) ≠ 0) :
    Unsplit (piece.foldl Nesting.after {}) (lexemes s) := by
  rcases hp with rfl | hp
  · exact h.unsplit
  · exact h.unsplit.foldl_after hp

/-- The last of the joined statements is the end of the last piece. -/
theorem pieces_joined_singleton {s : List Char} (hs : Standalone s) {piece : List Lexeme}
    (hp : piece = [] ∨ openBodies (words piece) ≠ 0) :
    pieces piece (lexemes (joined [';'] [s])) = [⟨piece ++ lexemes s, false⟩] := by
  have happend := pieces_append (b := []) (hs.unsplit_behind hp)
  rw [List.append_nil] at happend
  rw [joined, happend, pieces, if_neg]
  intro hnil
  exact lexemes_ne_nil hs.ne_nil (List.append_eq_nil_iff.mp hnil).2

/-- A statement either ends the piece it is read into or leaves it open to the next one. -/
theorem pieces_joined_cons {s : List Char} (hs : Standalone s) (hc : Closed s)
    {piece : List Lexeme} (hp : piece = [] ∨ openBodies (words piece) ≠ 0) (t : List Char)
    (ss : List (List Char)) :
    pieces piece (lexemes (joined [';'] (s :: t :: ss))) =
      if openBodies (words (piece ++ lexemes s)) = 0 then
        ⟨piece ++ lexemes s, true⟩ :: pieces [] (lexemes (joined [';'] (t :: ss)))
      else pieces (piece ++ lexemes s ++ [.symbol ';']) (lexemes (joined [';'] (t :: ss))) := by
  rw [lexemes_joined hc, pieces_append (hs.unsplit_behind hp), pieces]
  simp only [true_and]

variable {ss : List (List Char)}

/-- Joined statements are never split into more than there were. -/
theorem length_pieces_joined_le (h : ∀ s ∈ ss, Standalone s) (hc : ∀ s ∈ ss.dropLast, Closed s)
    (hne : ss ≠ []) {piece : List Lexeme} (hp : piece = [] ∨ openBodies (words piece) ≠ 0) :
    (pieces piece (lexemes (joined [';'] ss))).length ≤ ss.length := by
  induction ss generalizing piece with
  | nil => exact absurd rfl hne
  | cons s ss ih =>
    obtain ⟨hs, hss⟩ := List.forall_mem_cons.mp h
    cases ss with
    | nil => rw [pieces_joined_singleton hs hp]; rfl
    | cons t ss =>
      obtain ⟨hclosed, hc⟩ := List.forall_mem_cons.mp hc
      rw [pieces_joined_cons hs hclosed hp]
      by_cases hb : openBodies (words (piece ++ lexemes s)) = 0
      · rw [if_pos hb]
        exact Nat.succ_le_succ (ih hss hc (by simp) (Or.inl rfl))
      · have hopen : openBodies (words (piece ++ lexemes s ++ [.symbol ';'])) ≠ 0 := by
          rwa [words_concat_semicolon]
        rw [if_neg hb]
        exact Nat.le_succ_of_le (ih hss hc (by simp) (Or.inr hopen))

/-- A statement that leaves a body open takes the next one into its own piece. -/
theorem length_pieces_joined_lt (h : ∀ s ∈ ss, Standalone s) (hc : ∀ s ∈ ss.dropLast, Closed s)
    (hopen : ∃ s ∈ ss.dropLast, bodies s ≠ 0) :
    (pieces [] (lexemes (joined [';'] ss))).length < ss.length := by
  induction ss with
  | nil => simp at hopen
  | cons s ss ih =>
    obtain ⟨hs, hss⟩ := List.forall_mem_cons.mp h
    cases ss with
    | nil => simp at hopen
    | cons t ss =>
      obtain ⟨hclosed, hc⟩ := List.forall_mem_cons.mp hc
      rw [pieces_joined_cons hs hclosed (Or.inl rfl)]
      by_cases hb : bodies s = 0
      · have hopen' : ∃ s ∈ (t :: ss).dropLast, bodies s ≠ 0 := by
          obtain ⟨r, hr, hrb⟩ := hopen
          rcases List.mem_cons.mp hr with rfl | hr
          · exact absurd hb hrb
          · exact ⟨r, hr, hrb⟩
        rw [List.nil_append, ← bodies, if_pos hb]
        exact Nat.succ_lt_succ (ih hss hc hopen')
      · have hpiece : openBodies (words (lexemes s ++ [.symbol ';'])) ≠ 0 := by
          rwa [words_concat_semicolon]
        rw [List.nil_append, ← bodies, if_neg hb]
        exact Nat.lt_succ_of_le (length_pieces_joined_le hss hc (by simp) (Or.inr hpiece))

/-- **Statements that leave no body open come back one by one**, all but the last ended. -/
theorem pieces_joined (h : ∀ s ∈ ss, Standalone s) (hc : ∀ s ∈ ss.dropLast, Closed s)
    (hb : ∀ s ∈ ss.dropLast, bodies s = 0) :
    pieces [] (lexemes (joined [';'] ss)) =
      ss.dropLast.map (⟨lexemes ·, true⟩) ++ ss.getLast?.toList.map (⟨lexemes ·, false⟩) := by
  induction ss with
  | nil => simp [joined, pieces]
  | cons s ss ih =>
    obtain ⟨hs, hss⟩ := List.forall_mem_cons.mp h
    cases ss with
    | nil => rw [pieces_joined_singleton hs (Or.inl rfl)]; rfl
    | cons t ss =>
      obtain ⟨hclosed, hc⟩ := List.forall_mem_cons.mp hc
      obtain ⟨hsb, hb⟩ := List.forall_mem_cons.mp hb
      rw [pieces_joined_cons hs hclosed (Or.inl rfl), List.nil_append, ← bodies, if_pos hsb,
        ih hss hc hb, List.getLast?_cons_cons]
      rfl

theorem map_lexemes_pieces_joined (h : ∀ s ∈ ss, Standalone s)
    (hc : ∀ s ∈ ss.dropLast, Closed s) (hb : ∀ s ∈ ss.dropLast, bodies s = 0) :
    (pieces [] (lexemes (joined [';'] ss))).map Piece.lexemes = ss.map lexemes := by
  rw [pieces_joined h hc hb]
  rcases List.eq_nil_or_concat ss with rfl | ⟨init, s, rfl⟩
  · rfl
  · simp

end Joining

/-! ## The statements of a text -/

/-- The pieces that are statements. -/
def statementPieces (cs : List Char) : List Piece :=
  (pieces [] (lexemes cs)).filter (!·.sql.isEmpty)

theorem sql_eq_self {s : List Char} (h : Standalone s) {p : Piece} (hp : p.lexemes = lexemes s) :
    p.sql = s := by
  have hbare : (lexemes s).map Lexeme.bare = (lexemes s).map id :=
    List.map_congr_left fun l hl => by simp [Lexeme.bare, h.bare l hl]
  rw [Piece.sql, hp, hbare, List.map_id, source_lexemes, h.trimmed]

theorem length_statementPieces_joined {ss : List (List Char)} (h : ∀ s ∈ ss, Standalone s)
    (hc : ∀ s ∈ ss.dropLast, Closed s) :
    (statementPieces (joined [';'] ss)).length = ss.length ↔ ∀ s ∈ ss.dropLast, bodies s = 0 := by
  constructor
  · intro hlen s hs
    by_contra hb
    have hlt := length_pieces_joined_lt h hc ⟨s, hs, hb⟩
    have hle : (statementPieces (joined [';'] ss)).length ≤ _ := List.length_filter_le _ _
    omega
  · intro hb
    have hmap := map_lexemes_pieces_joined h hc hb
    have hall : ∀ p ∈ pieces [] (lexemes (joined [';'] ss)), (!p.sql.isEmpty) = true := by
      intro p hp
      have hmem : p.lexemes ∈ ss.map lexemes := hmap ▸ List.mem_map_of_mem hp
      obtain ⟨s, hs, he⟩ := List.mem_map.mp hmem
      rw [sql_eq_self (h s hs) he.symm]
      simpa using (h s hs).ne_nil
    rw [statementPieces, List.filter_eq_self.mpr hall, ← List.length_map (f := Piece.lexemes), hmap,
      List.length_map]

/-! ## Complete statements -/

theorem Lexeme.mode_of_closed {l : Lexeme} (h : l.closed = true) : l.mode = .plain := by
  cases l <;> simp_all [Lexeme.closed, Lexeme.mode]

namespace Scan

/-- Lexemes that do not separate are passed one by one. -/
theorem runLexemes_append {s : Scan} {a : List Lexeme} (h : Unsplit s.nesting a)
    (b : List Lexeme) : runLexemes s (a ++ b) = runLexemes (a.foldl pass s) b := by
  induction a generalizing s with
  | nil => rfl
  | cons l a ih =>
    rw [List.cons_append, runLexemes, if_neg h.1]
    exact ih h.2

theorem nesting_foldl_pass (s : Scan) (ls : List Lexeme) :
    (ls.foldl pass s).nesting = ls.foldl Nesting.after s.nesting := by
  induction ls generalizing s with
  | nil => rfl
  | cons l ls ih => exact ih (s.pass l)

theorem mode_foldl_pass {s : Scan} (hm : s.mode = .plain) {ls : List Lexeme}
    (h : ∀ l ∈ ls, l.closed = true) : (ls.foldl pass s).mode = .plain := by
  induction ls generalizing s with
  | nil => exact hm
  | cons l ls ih =>
    obtain ⟨hl, hls⟩ := List.forall_mem_cons.mp h
    exact ih (s := s.pass l) (mode_of_closed hl) hls

/-- Behind a `;` the text is at its end if no body is open there. -/
theorem atEnd_semicolon {s : Scan} (hm : s.mode = .plain) :
    (runLexemes s [.symbol ';']).2.atEnd = true ↔ s.nesting.depth = 0 := by
  by_cases hd : s.nesting.depth = 0
  · have hsep : s.nesting.separates (.symbol ';') := ⟨rfl, hd⟩
    simp [runLexemes, hsep, separate, atEnd, hm, hd]
  · have hsep : ¬ s.nesting.separates (.symbol ';') := fun h => hd h.2
    simp [runLexemes, hsep, pass, atEnd, hd, Nesting.after]

end Scan

/-- A statement is complete once a `;` is put behind it, unless it leaves a body open. -/
theorem isComplete_append_semicolon {cs : List Char} (h : Standalone cs) (hc : Closed cs) :
    isComplete (String.ofList cs ++ ";") = true ↔ bodies cs = 0 := by
  have htext : (String.ofList cs ++ ";").toList = cs ++ ';' :: [] := by simp
  have hmode : ((lexemes cs).foldl Scan.pass {}).mode = .plain := Scan.mode_foldl_pass rfl hc
  rw [isComplete, htext, Scan.run_eq_runLexemes rfl (Or.inl rfl), lexemes_semicolon hc.last,
    lexemes_nil, Scan.runLexemes_append h.unsplit, Scan.atEnd_semicolon hmode,
    Scan.nesting_foldl_pass, depth_foldl_after, bodies]

/-! ## The law -/

theorem pairwise_left_iff {α : Type} {P : α → Prop} {l : List α} :
    (l.Pairwise fun a _ => P a) ↔ ∀ a ∈ l.dropLast, P a := by
  induction l with
  | nil => simp
  | cons a l ih =>
    cases l with
    | nil => simp
    | cons b l =>
      have hhead : (∀ x ∈ b :: l, P a) ↔ P a := ⟨fun h => h b List.mem_cons_self, fun h _ _ => h⟩
      rw [List.pairwise_cons, ih, hhead, List.dropLast_cons_cons, List.forall_mem_cons]

theorem map_place (start : Nat) (ps : List Piece) :
    (place start ps).map (fun f => (f.sql, f.terminated)) =
      ps.map fun p => (p.sql, p.terminated) := by
  induction ps generalizing start with
  | nil => rfl
  | cons p ps ih => rw [place, List.map_cons, List.map_cons, ih]

section Pieces

variable {cs : List Char} {p : Piece}

theorem Piece.cut_of_mem_statementPieces (h : p ∈ statementPieces cs) : p.Cut ∧ p.sql ≠ [] := by
  obtain ⟨hp, hne⟩ := List.mem_filter.mp h
  have hlexed : Lexed ([] ++ Lexeme.lexemes cs) := lexed_lexemes cs
  exact ⟨cut_of_mem hlexed trivial p hp, by simpa using hne⟩

theorem terminated_of_mem_dropLast (h : p ∈ (statementPieces cs).dropLast) :
    p.terminated = true :=
  pairwise_left_iff.mp ((Piece.pairwise_pieces [] (lexemes cs)).filter _) p h

end Pieces

namespace Statement

theorem endedButLast_iff {ss : List Statement} :
    endedButLast ss = true ↔ ∀ s ∈ ss.dropLast, s.terminated = true := by
  induction ss with
  | nil => simp [endedButLast]
  | cons s ss ih =>
    cases ss with
    | nil => simp [endedButLast]
    | cons t ss => simp [endedButLast, ih]

/-- The statements of a text have the texts of its pieces and are ended as these are. -/
theorem map_split (text : String) :
    (split text).map (fun s => (s.sql.toList, s.terminated)) =
      (statementPieces text.toList).map fun p => (p.sql, p.terminated) := by
  have hofFragment : (fun s : Statement => (s.sql.toList, s.terminated)) ∘ ofFragment =
      fun f => (f.sql, f.terminated) := by
    funext f
    simp [ofFragment]
  rw [split, Scan.fragments, Scan.run_eq_place ⟨rfl, rfl, rfl⟩ rfl rfl, List.map_map, hofFragment]
  calc ((place 0 (pieces [] (lexemes text.toList))).filter fun f => !f.sql.isEmpty).map
        (fun f => (f.sql, f.terminated))
    _ = ((place 0 (pieces [] (lexemes text.toList))).map fun f => (f.sql, f.terminated)).filter
        (fun x => !x.1.isEmpty) := by simp only [List.filter_map, Function.comp_def]
    _ = ((pieces [] (lexemes text.toList)).map fun p => (p.sql, p.terminated)).filter
        (fun x => !x.1.isEmpty) := by rw [map_place]
    _ = (statementPieces text.toList).map fun p => (p.sql, p.terminated) := by
      simp only [statementPieces, List.filter_map, Function.comp_def]

theorem map_sql_split (text : String) :
    (split text).map (·.sql.toList) = (statementPieces text.toList).map Piece.sql := by
  have h := congrArg (List.map Prod.fst) (map_split text)
  rwa [List.map_map, List.map_map] at h

theorem length_split (text : String) :
    (split text).length = (statementPieces text.toList).length := by
  simpa using congrArg List.length (map_split text)

theorem terminated_split (text : String) : ∀ s ∈ (split text).dropLast, s.terminated = true := by
  intro s hs
  have hmem : (s.sql.toList, s.terminated) ∈
      ((split text).map fun s => (s.sql.toList, s.terminated)).dropLast := by
    rw [← List.map_dropLast]
    exact List.mem_map_of_mem hs
  rw [map_split, ← List.map_dropLast] at hmem
  obtain ⟨p, hp, he⟩ := List.mem_map.mp hmem
  exact (congrArg Prod.snd he).symm.trans (terminated_of_mem_dropLast hp)

/-- A statement is not empty and stands where its span says. -/
theorem slice?_split {text : String} {s : Statement} (h : s ∈ split text) :
    s.sql ≠ "" ∧ (slice? text.toList s.span).isSome = true := by
  obtain ⟨f, hf, rfl⟩ := List.mem_map.mp h
  obtain ⟨hf, hne⟩ := List.mem_filter.mp hf
  refine ⟨by simpa [ofFragment] using hne, ?_⟩
  rw [Scan.fragments, Scan.run_eq_place ⟨rfl, rfl, rfl⟩ rfl rfl] at hf
  have hslice := map_slice?_place (Piece.pairwise_pieces [] (lexemes text.toList)) []
  rw [Piece.flatMap_whole_pieces, List.nil_append, List.nil_append, source_lexemes] at hslice
  have hmem := List.mem_map_of_mem (f := fun f : Fragment => slice? text.toList f.span) hf
  rw [byteSize_nil] at hslice
  rw [show ({} : Scan).start = 0 from rfl, hslice] at hmem
  obtain ⟨p, -, he⟩ := List.mem_map.mp hmem
  change (slice? text.toList f.span).isSome = true
  rw [← he]
  rfl

theorem standalone_split (text : String) :
    ∀ cs ∈ (split text).map (·.sql.toList), Standalone cs := by
  rw [map_sql_split]
  intro cs hcs
  obtain ⟨p, hp, rfl⟩ := List.mem_map.mp hcs
  obtain ⟨hcut, hne⟩ := Piece.cut_of_mem_statementPieces hp
  exact hcut.standalone hne

theorem closed_split (text : String) :
    ∀ cs ∈ ((split text).map (·.sql.toList)).dropLast, Closed cs := by
  rw [map_sql_split, ← List.map_dropLast]
  intro cs hcs
  obtain ⟨p, hp, rfl⟩ := List.mem_map.mp hcs
  have hcut := (Piece.cut_of_mem_statementPieces ((List.dropLast_sublist _).subset hp)).1
  exact hcut.closed_sql (terminated_of_mem_dropLast hp)

/-- **When statements can be joined and split again.** A statement is never empty, its span is a
piece of the text, and only the last may lack its `;`. Joined by `;` they are split into as many
again if and only if each that another one follows is complete once a `;` is put behind it. -/
theorem wellCut_iff (text : String) :
    (∀ s ∈ split text, s.sql ≠ "" ∧ (slice? text.toList s.span).isSome = true) ∧
      endedButLast (split text) = true ∧
      (wellCut text = true ↔
        ∀ s ∈ (split text).dropLast, isComplete (s.sql ++ ";") = true) := by
  have hslice : ∀ s ∈ split text, s.sql ≠ "" ∧ (slice? text.toList s.span).isSome = true :=
    fun s hs => slice?_split hs
  have hended : endedButLast (split text) = true := endedButLast_iff.mpr (terminated_split text)
  have hlength : (split (join ";" ((split text).map (·.sql)))).length =
      (statementPieces (joined [';'] ((split text).map (·.sql.toList)))).length := by
    rw [length_split, join, String.toList_ofList, List.map_map]
    rfl
  have hcomplete : (∀ s ∈ (split text).dropLast, isComplete (s.sql ++ ";") = true) ↔
      ∀ cs ∈ ((split text).map (·.sql.toList)).dropLast, bodies cs = 0 := by
    rw [← List.map_dropLast, List.forall_mem_map]
    refine forall₂_congr fun s hs => ?_
    have hmem : s.sql.toList ∈ ((split text).map (·.sql.toList)).dropLast := by
      rw [← List.map_dropLast]
      exact List.mem_map_of_mem hs
    have hiff := isComplete_append_semicolon
      (standalone_split text _ ((List.dropLast_sublist _).subset hmem)) (closed_split text _ hmem)
    rwa [String.ofList_toList] at hiff
  have hjoined := length_statementPieces_joined (standalone_split text) (closed_split text)
  rw [List.length_map] at hjoined
  refine ⟨hslice, hended, ?_⟩
  rw [hcomplete, ← hjoined, ← hlength]
  simp only [wellCut, hended, Bool.and_true, Bool.and_eq_true, beq_iff_eq, List.all_eq_true]
  refine and_iff_right fun s hs => ?_
  simpa using hslice s hs

/-- A no-break space hides a trigger until the statement is read again: its body then swallows what
follows. -/
theorem wellCut_hidden_trigger :
    wellCut "\u00a0CREATE TRIGGER t BEGIN;END" = false := by decide

end Statement

end SqlConsole
