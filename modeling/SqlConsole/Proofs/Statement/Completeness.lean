import SqlConsole.Proofs.Statement.NormalForm
import SqlConsole.Proofs.Statement.Shell

/-!
# Complete texts and their statements

`isComplete` looks at the last token of a text, `Statement.split` at what is left of it behind the
last separator. Both mean the same: a text is finished (`Finished`) if it has a separator, if behind
the last one there is no statement, and if no comment is left open there.

A complete text is finished. A finished text is complete unless it holds white space that
`Statement.split` trims and `isComplete` takes for a token: a vertical tab, or white space outside
of ASCII (`isComplete_finished`). What is behind the last separator are then lexemes that say
nothing (`isIdle_of_sql_eq_nil`), and these leave the `;` for the last token.
-/

namespace SqlConsole

open Text Lexeme

/-- What the scan of a text shows if the text is finished. -/
structure Finished (text : String) : Prop where
  /-- A `;` separates. -/
  separated : ∃ f ∈ Scan.fragments text.toList, f.terminated = true
  /-- What follows the last separator is no statement. -/
  nothing_left : ∀ f ∈ Scan.fragments text.toList, f.terminated = false → f.sql = []
  /-- No block comment is left open. -/
  comment_closed : (Scan.run {} text.toList).2.mode ≠ .blockComment

/-! ## Fragments and pieces -/

/-- What is known of the text of a piece and of how it ends is known of its fragment. -/
theorem exists_fragment_iff (cs : List Char) (P : List Char → Bool → Prop) :
    (∃ f ∈ Scan.fragments cs, P f.sql f.terminated) ↔
      ∃ p ∈ pieces [] (lexemes cs), P p.sql p.terminated := by
  have hmap : (Scan.fragments cs).map (fun f => (f.sql, f.terminated)) =
      (pieces [] (lexemes cs)).map fun p => (p.sql, p.terminated) := by
    rw [Scan.fragments, Scan.run_eq_place ⟨rfl, rfl, rfl⟩ rfl rfl, map_place]
  have hfragments : (∃ x ∈ (Scan.fragments cs).map fun f => (f.sql, f.terminated), P x.1 x.2) ↔
      ∃ f ∈ Scan.fragments cs, P f.sql f.terminated := by simp
  rw [← hfragments, hmap]
  simp

/-- The only piece without a separator is what is unfinished. -/
theorem lexemes_of_not_terminated {ls : List Lexeme} {p : Piece} (hp : p ∈ pieces [] ls)
    (ht : p.terminated = false) : p.lexemes = unfinished [] ls := by
  rw [pieces_eq] at hp
  rcases List.mem_append.mp hp with hp | hp
  · rw [(List.mem_filter.mp hp).2] at ht
    cases ht
  · split at hp
    case isTrue => simp at hp
    case isFalse => rw [List.mem_singleton.mp hp]

/-! ## The last separator -/

namespace Scan

/-- No `;` that was read outside trigger bodies is the last token. -/
def Unsettled (s : Scan) : Prop := s.settled = true → s.nesting.depth ≠ 0

theorem Unsettled.pass {s : Scan} (h : s.Unsettled) {l : Lexeme}
    (hsep : ¬ s.nesting.separates l) : (s.pass l).Unsettled := by
  intro hsettled
  cases l with
  | quoted _ _ _ | bracketed _ _ | word _ => simp [Scan.pass, settles] at hsettled
  | lineComment _ | blockComment _ _ => exact h hsettled
  | symbol c =>
    by_cases hc : isSpace c = true
    · exact h (by simpa [Scan.pass, settles, hc] using hsettled)
    · -- A `;` that does not separate stands in a body.
      have hc : c = ';' := by simpa [Scan.pass, settles, hc] using hsettled
      exact fun hdepth => hsep ⟨congrArg _ hc, hdepth⟩

/-- Only a separator can be the last token with no body open. -/
theorem Unsettled.exists_terminated {s : Scan} (h : s.Unsettled) {piece : List Lexeme}
    (hbehind : s.Behind piece) {ls : List Lexeme}
    (hsettled : (ls.foldl read s).settled = true)
    (hdepth : (ls.foldl read s).nesting.depth = 0) :
    ∃ p ∈ pieces piece ls, p.terminated = true := by
  induction ls generalizing s piece with
  | nil => exact absurd hdepth (h hsettled)
  | cons l ls ih =>
    rw [List.foldl_cons, read] at hsettled hdepth
    rw [pieces]
    by_cases hsep : s.nesting.separates l
    · have hsep' : l = .symbol ';' ∧ openBodies (words piece) = 0 :=
        ⟨hsep.1, hbehind.depth ▸ hsep.2⟩
      rw [if_pos hsep']
      exact ⟨_, List.mem_cons_self, rfl⟩
    · have hsep' : ¬ (l = .symbol ';' ∧ openBodies (words piece) = 0) :=
        fun hs => hsep ⟨hs.1, hbehind.depth ▸ hs.2⟩
      rw [if_neg hsep] at hsettled hdepth
      rw [if_neg hsep']
      exact ih (h.pass hsep) (hbehind.pass l) hsettled hdepth

end Scan

/-- Behind the last separator stands what is unfinished. -/
theorem exists_last_separator {piece ls : List Lexeme}
    (h : ∃ p ∈ pieces piece ls, p.terminated = true) :
    ∃ before, ls = before ++ .symbol ';' :: unfinished piece ls ∧
      openBodies (words (unfinished piece before)) = 0 := by
  induction ls generalizing piece with
  | nil =>
    obtain ⟨p, hp, ht⟩ := h
    by_cases hnil : piece = []
    · simp [pieces, hnil] at hp
    · obtain rfl : p = ⟨piece, false⟩ := by simpa [pieces, hnil] using hp
      cases ht
  | cons l ls ih =>
    rw [unfinished]
    by_cases hsep : l = .symbol ';' ∧ openBodies (words piece) = 0
    · rw [if_pos hsep]
      by_cases hmore : ∃ p ∈ pieces [] ls, p.terminated = true
      · obtain ⟨before, hls, hbodies⟩ := ih hmore
        refine ⟨l :: before, congrArg (l :: ·) hls, ?_⟩
        rw [unfinished, if_pos hsep]
        exact hbodies
      · -- It is the last one: nothing behind it separates.
        have hnone : (pieces [] ls).filter (·.terminated) = [] :=
          List.filter_eq_nil_iff.mpr fun p hp ht => hmore ⟨p, hp, ht⟩
        have hwhole := Piece.flatMap_whole_pieces [] ls
        rw [pieces_eq, hnone, List.nil_append, List.nil_append] at hwhole
        have hunfinished : unfinished [] ls = ls := by
          split at hwhole
          case isTrue hnil => rw [hnil, ← hwhole]; rfl
          case isFalse => simpa [Piece.whole] using hwhole
        exact ⟨[], by rw [hunfinished, hsep.1]; rfl, hsep.2⟩
    · rw [pieces, if_neg hsep] at h
      obtain ⟨before, hls, hbodies⟩ := ih h
      rw [if_neg hsep]
      refine ⟨l :: before, congrArg (l :: ·) hls, ?_⟩
      rw [unfinished, if_neg hsep]
      exact hbodies

/-! ## What says nothing -/

/-- White space of ASCII that is no vertical tab is passed over when one asks for the last token. -/
theorem Text.isSpace_of_isBlank {c : Char} (h : Text.isBlank c = true) (ha : c.toNat < 0x80)
    (hv : c ≠ '\x0b') : isSpace c = true := by
  have hmem : c.toNat ∈ [9, 10, 11, 12, 13, 32] := by
    simp [Text.isBlank] at h
    simp only [List.mem_cons, List.not_mem_nil, or_false]
    omega
  have hall : ∀ n ∈ [9, 10, 11, 12, 13, 32], Char.ofNat n ≠ '\x0b' →
      isSpace (Char.ofNat n) = true := by decide
  have happly := hall c.toNat hmem
  rw [Char.ofNat_toNat] at happly
  exact happly hv

/-- **Lexemes that make no statement** say nothing, an open comment apart, if all white space is
passed over. -/
theorem isIdle_of_sql_eq_nil {ls : List Lexeme} (h : Lexed ls) (ha : AsciiBlanks (source ls))
    (hv : '\x0b' ∉ source ls) (hsql : (Piece.mk ls false).sql = []) :
    ∀ l ∈ ls, l.isIdle = true ∨ ∃ inner, l = .blockComment inner false := by
  intro l hl
  have hblank : ∀ c ∈ l.bare.text, Text.isBlank c = true := fun c hc =>
    isBlank_of_trim_eq_nil hsql c
      (List.mem_flatMap.mpr ⟨l.bare, List.mem_map_of_mem hl, hc⟩)
  have hsource : ∀ c ∈ l.text, c ∈ source ls := fun c hc => List.mem_flatMap.mpr ⟨l, hl, hc⟩
  obtain ⟨before, after, rfl⟩ := List.append_of_mem hl
  have hfits : l.Fits (source after) := h.right.1
  cases hcomment : l.isComment with
  | true =>
    cases l with
    | lineComment _ => exact Or.inl rfl
    | blockComment inner closed =>
      cases closed
      · exact Or.inr ⟨inner, rfl⟩
      · exact Or.inl rfl
    | _ => cases hcomment
  | false =>
    obtain ⟨c, cs, htext⟩ := List.exists_cons_of_ne_nil hfits.text_ne_nil
    have hbare : l.bare = l := by simp [bare, hcomment]
    have hmem : c ∈ l.text := by rw [htext]; exact List.mem_cons_self
    have hc : Text.isBlank c = true := hblank c (by rwa [hbare])
    have hascii : c.toNat < 0x80 := ha c (hsource c hmem) hc
    left
    rcases hfits.of_isBlank htext hc with rfl | rfl
    · exact isSpace_of_isBlank hc hascii fun he => hv (he ▸ hsource c hmem)
    · cases hfits with
      | word _ hw _ =>
        have hword := hw c List.mem_cons_self
        rw [(apart_of_isBlank hc hascii).not_word] at hword
        cases hword

/-- What says nothing leaves a reading between two statements. -/
theorem Scan.Between.foldl_read {s : Scan} (h : s.Between) {ls : List Lexeme}
    (hls : ∀ l ∈ ls, l.isIdle = true) :
    (ls.foldl Scan.read s).Between ∧ (ls.foldl Scan.read s).settled = s.settled := by
  induction ls generalizing s with
  | nil => exact ⟨h, rfl⟩
  | cons l ls ih =>
    obtain ⟨hl, hls⟩ := List.forall_mem_cons.mp hls
    obtain ⟨hread, hsettled⟩ := h.read hl
    obtain ⟨hlast, hsettled'⟩ := ih hread hls
    exact ⟨hlast, hsettled'.trans hsettled⟩

/-! ## Complete and finished -/

/-- In front of a `;` nothing is open. -/
theorem Scan.mode_of_lexed_semicolon {before after : List Lexeme}
    (h : Lexed (before ++ .symbol ';' :: after)) :
    (before.foldl Scan.read {}).mode = .plain := by
  rw [Scan.mode_foldl_read h.left (Or.inl rfl)]
  rcases List.eq_nil_or_concat before with rfl | ⟨init, l, rfl⟩
  · rfl
  · rw [List.concat_eq_append] at h ⊢
    rw [List.getLast?_concat]
    rw [List.append_assoc] at h
    have hfits : l.Fits (';' :: source after) := h.right.1
    rcases hfits.mode_cases with hmode | ⟨-, hnewline⟩ | hnil
    · exact hmode
    · exact absurd (hnewline ';' rfl) (by decide)
    · cases hnil

/-- A complete text is finished. -/
theorem finished_of_isComplete {text : String} (h : isComplete text = true) : Finished text := by
  have hblank := unfinished_of_isComplete h
  simp only [isComplete, Scan.atEnd, Bool.and_eq_true, Bool.or_eq_true, beq_iff_eq] at h
  obtain ⟨⟨hmode, hdepth⟩, hsettled⟩ := h
  rw [Scan.run_snd] at hdepth hsettled
  have hstart : ({} : Scan).Unsettled := by
    intro hsettled
    cases hsettled
  have hbehind : ({} : Scan).Behind [] := ⟨rfl, rfl, rfl⟩
  refine ⟨?_, fun f hf ht => ?_, ?_⟩
  · have hterminated := hstart.exists_terminated hbehind hsettled hdepth
    exact (exists_fragment_iff text.toList fun _ terminated => terminated = true).mpr hterminated
  · obtain ⟨p, hp, hsql, hended⟩ :=
      (exists_fragment_iff text.toList fun sql terminated =>
        sql = f.sql ∧ terminated = false).mp ⟨f, hf, rfl, ht⟩
    rw [← hsql, Piece.sql, lexemes_of_not_terminated hp hended]
    exact sql_of_blank hblank false
  · rcases hmode with hmode | hmode <;> simp [hmode]

/-- A finished text is complete if all its white space is passed over. -/
theorem isComplete_of_finished {text : String} (hv : '\x0b' ∉ text.toList)
    (ha : AsciiBlanks text.toList) (h : Finished text) : isComplete text = true := by
  have hlexed := lexed_lexemes text.toList
  obtain ⟨before, hls, hbodies⟩ := exists_last_separator
    ((exists_fragment_iff text.toList fun _ terminated => terminated = true).mp h.separated)
  generalize hleft : unfinished [] (lexemes text.toList) = left at hls
  have hsubset : source left ⊆ text.toList := by
    intro c hc
    rw [← source_lexemes text.toList, hls, source_append, source_cons]
    simp [hc]
  have hleftLexed : Lexed left := by
    rw [hls] at hlexed
    exact hlexed.right.2
  -- What is left is no statement, and so says nothing.
  have hsql : (Piece.mk left false).sql = [] := by
    by_cases hnil : left = []
    · rw [hnil]
      rfl
    · have hmem : (Piece.mk left false) ∈ pieces [] (lexemes text.toList) := by
        rw [pieces_eq, hleft, if_neg hnil]
        simp
      obtain ⟨f, hf, hfsql, hfended⟩ :=
        (exists_fragment_iff text.toList fun sql terminated =>
          sql = (Piece.mk left false).sql ∧ terminated = false).mpr ⟨_, hmem, rfl, rfl⟩
      rw [← hfsql]
      exact h.nothing_left f hf hfended
  have hidle : ∀ l ∈ left, l.isIdle = true := by
    intro l hl
    rcases isIdle_of_sql_eq_nil hleftLexed (ha.mono hsubset) (fun hc => hv (hsubset hc)) hsql l hl
      with hl' | ⟨inner, rfl⟩
    · exact hl'
    · -- A comment that is left open is the end of the text.
      obtain ⟨first, last, rfl⟩ := List.append_of_mem hl
      have hlast : last = [] := by
        by_contra hne
        have hfits := hleftLexed.right.1
        generalize hsource : source last = rest at hfits
        cases hfits
        exact source_ne_nil hleftLexed.right.2 hne hsource
      refine absurd ?_ h.comment_closed
      rw [mode_run, hls, hlast, ← List.cons_append, ← List.append_assoc, List.getLast?_concat]
      rfl
  have hseparates :
      (before.foldl Scan.read {}).nesting.separates (.symbol ';') := by
    refine ⟨rfl, ?_⟩
    have hstart : ({} : Scan).Behind [] := ⟨rfl, rfl, rfl⟩
    rw [(hstart.foldl_read before).depth]
    exact hbodies
  have hbetween : (before.foldl Scan.read {}).separate.Between :=
    ⟨Or.inl (Scan.mode_of_lexed_semicolon (hls ▸ hlexed)), rfl⟩
  obtain ⟨hlast, hsettled⟩ := hbetween.foldl_read hidle
  have hmode := hlast.mode
  rw [isComplete, Scan.run_snd, hls, List.foldl_append, List.foldl_cons, Scan.read,
    if_pos hseparates, Scan.atEnd, hlast.nesting, hsettled]
  simpa [Scan.separate] using hmode

/-- **Complete texts are finished texts.** A complete text has a separator, behind the last one it
has no statement, so that all its statements are ended, and it leaves no block comment open. A text
of which this is so is complete, if it holds no vertical tab and no white space outside of ASCII. -/
theorem isComplete_finished :
    (∀ text : String, isComplete text = true →
      Finished text ∧ ∀ s ∈ Statement.split text, s.terminated = true) ∧
    ∀ text : String, '\x0b' ∉ text.toList → AsciiBlanks text.toList → Finished text →
      isComplete text = true :=
  ⟨fun _ h => ⟨finished_of_isComplete h, Statement.terminated_of_isComplete h⟩,
    fun _ hv ha h => isComplete_of_finished hv ha h⟩

/-- A trigger, the separator behind its body, and a comment. -/
theorem isComplete_finished_trigger :
    let text := "CREATE TRIGGER t AFTER INSERT ON u BEGIN SELECT 1; END; -- done"
    '\x0b' ∉ text.toList ∧ AsciiBlanks text.toList ∧ Finished text ∧ isComplete text = true ∧
      ∀ s ∈ Statement.split text, s.terminated = true := by
  intro text
  have hv : '\x0b' ∉ text.toList := by decide
  have ha : AsciiBlanks text.toList := by decide
  have hfinished : Finished text := ⟨by decide, by decide, by decide⟩
  have hcomplete : isComplete text = true := isComplete_finished.2 text hv ha hfinished
  exact ⟨hv, ha, hfinished, hcomplete, (isComplete_finished.1 text hcomplete).2⟩

/-- A vertical tab is trimmed from a statement, but it is a token. -/
example : Statement.split ";\x0b" = [] ∧ isComplete ";\x0b" = false := by decide

end SqlConsole
