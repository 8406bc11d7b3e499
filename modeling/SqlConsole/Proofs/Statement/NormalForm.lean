import SqlConsole.Proofs.Statement.Rejoining

/-!
# The normal form of a text

The statements of a text, joined by `;`, are its normal form: nothing is left of the comments and of
the white space between the statements. Where all white space of a text is ASCII's, the normal form
is split into exactly the same statements (`split_join_eq`).

White space of ASCII is never part of a word. So trimming drops single symbols and nothing else
(`exists_trim_eq`), the words of a statement's text are the words that the scanner has read before
(`words_sql`), and a statement that was ended leaves no trigger body open when it is read again.
-/

namespace SqlConsole

open Text Lexeme

/-! ## White space of ASCII -/

/-- All white space of a text is ASCII's. -/
def Text.AsciiBlanks (cs : List Char) : Prop := ∀ c ∈ cs, isBlank c = true → c.toNat < 0x80

instance (cs : List Char) : Decidable (AsciiBlanks cs) :=
  List.decidableBAll (fun c => isBlank c = true → c.toNat < 0x80) cs

theorem Text.AsciiBlanks.mono {a b : List Char} (hb : AsciiBlanks b) (h : a ⊆ b) : AsciiBlanks a :=
  fun c hc => hb c (h hc)

theorem Text.asciiBlanks_append {a b : List Char} :
    AsciiBlanks (a ++ b) ↔ AsciiBlanks a ∧ AsciiBlanks b := List.forall_mem_append

namespace Lexeme

/-- White space of ASCII is a lexeme by itself. -/
theorem apart_of_isBlank {c : Char} (h : isBlank c = true) (hc : c.toNat < 0x80) : Apart c := by
  have hmem : c.toNat ∈ [9, 10, 11, 12, 13, 32] := by
    simp [isBlank] at h
    simp only [List.mem_cons, List.not_mem_nil, or_false]
    omega
  have hall : ∀ n ∈ [9, 10, 11, 12, 13, 32], Apart (Char.ofNat n) := by decide
  have happly := hall c.toNat hmem
  rwa [Char.ofNat_toNat] at happly

/-- Blanks at the front are symbols of their own. -/
theorem exists_dropBlanks_eq {ls : List Lexeme} (h : Lexed ls) (ha : AsciiBlanks (source ls)) :
    ∃ pre post, ls = pre ++ post ∧ words pre = [] ∧
      (source ls).dropWhile isBlank = source post := by
  induction ls with
  | nil => exact ⟨[], [], rfl, rfl, rfl⟩
  | cons l ls ih =>
    obtain ⟨c, cs, htext⟩ := List.exists_cons_of_ne_nil h.1.text_ne_nil
    have hsource : source (l :: ls) = c :: (cs ++ source ls) := by simp [htext]
    rw [hsource] at ha ⊢
    by_cases hc : isBlank c = true
    · have hapart : Apart c := apart_of_isBlank hc (ha c List.mem_cons_self hc)
      have hsymbol : l = .symbol c := by
        refine (h.1.of_isBlank htext hc).resolve_right ?_
        rintro rfl
        cases h.1 with
        | word _ hw _ => simp [hapart.not_word] at hw
      subst hsymbol
      obtain rfl : cs = [] := by simpa [text, eq_comm] using htext
      obtain ⟨pre, post, rfl, hpre, hpost⟩ :=
        ih h.2 (ha.mono (List.subset_cons_self _ _))
      exact ⟨.symbol c :: pre, post, rfl, hpre, by rw [List.dropWhile_cons_of_pos hc]; exact hpost⟩
    · exact ⟨[], l :: ls, rfl, rfl, by rw [List.dropWhile_cons_of_neg hc, hsource]⟩

/-- A lexeme with nothing open ends in other than white space, or is a blank itself. -/
theorem Fits.trimRight_eq {l : Lexeme} {rest : List Char} (h : l.Fits rest) (hc : l.closed = true)
    (hn : l.isComment = false) (ha : AsciiBlanks l.text) :
    (∃ c, l = .symbol c ∧ isBlank c = true) ∨ Text.trimRight l.text = l.text := by
  cases h with
  | openQuoted _ | openBracketed _ => simp [closed] at hc
  | lineComment _ _ | blockComment _ | openBlockComment _ => simp [isComment] at hn
  | quoted hq _ =>
    right
    rw [text, if_pos rfl, ← List.cons_append]
    exact trimRight_concat (isBlank_of_isQuote hq) _
  | bracketed _ =>
    right
    rw [text, if_pos rfl, ← List.cons_append]
    exact trimRight_concat rfl _
  | @word letters _ hp hw _ =>
    right
    obtain ⟨init, c, rfl⟩ := (List.eq_nil_or_concat letters).resolve_left hp
    rw [List.concat_eq_append] at ha hw ⊢
    refine trimRight_concat (Bool.eq_false_iff.mpr fun hblank => ?_) init
    have hapart := apart_of_isBlank hblank (ha c (by simp [text]) hblank)
    -- A word may end in white space only outside of ASCII.
    have hword := hw c (by simp)
    rw [hapart.not_word] at hword
    cases hword
  | @symbol c _ _ _ _ _ _ =>
    by_cases hblank : isBlank c = true
    · exact Or.inl ⟨c, rfl, hblank⟩
    · exact Or.inr (trimRight_singleton (by simpa using hblank))

/-- Blanks at the end are symbols of their own, if nothing is open there. -/
theorem exists_trimRight_eq {ls : List Lexeme} (h : Lexed ls) (hc : ∀ l ∈ ls, l.closed = true)
    (hn : ∀ l ∈ ls, l.isComment = false) (ha : AsciiBlanks (source ls)) :
    ∃ pre post, ls = pre ++ post ∧ words post = [] ∧ trimRight (source ls) = source pre := by
  -- From the end: a blank there is dropped, and anything else keeps what stands before it.
  induction ls using List.reverseRecOn with
  | nil => exact ⟨[], [], rfl, rfl, rfl⟩
  | append_singleton ls l ih =>
    have hsource : source (ls ++ [l]) = source ls ++ l.text := by simp
    rw [hsource] at ha ⊢
    obtain ⟨hls, hl⟩ := asciiBlanks_append.mp ha
    rcases h.right.1.trimRight_eq (hc l (by simp)) (hn l (by simp)) hl with ⟨c, rfl, hblank⟩ | hl
    · obtain ⟨pre, post, rfl, hpost, hpre⟩ :=
        ih h.left (fun k hk => hc k (by simp [hk])) (fun k hk => hn k (by simp [hk])) hls
      refine ⟨pre, post ++ [.symbol c], by simp, by simpa [words, letters?] using hpost, ?_⟩
      have hnil : trimRight (text (.symbol c)) = [] := by simp [text, trimRight, hblank]
      rw [trimRight_append, if_pos hnil, hpre]
    · have hne : trimRight l.text ≠ [] := by rw [hl]; exact h.right.1.text_ne_nil
      refine ⟨ls ++ [l], [], by simp, rfl, ?_⟩
      rw [trimRight_append, if_neg hne, hl, hsource]

/-- **Trimming drops symbols only**, if nothing is open at the end. -/
theorem exists_trim_eq {ls : List Lexeme} (h : Lexed ls) (hc : ∀ l ∈ ls, l.closed = true)
    (hn : ∀ l ∈ ls, l.isComment = false) (ha : AsciiBlanks (source ls)) :
    ∃ pre mid post, ls = pre ++ mid ++ post ∧ words pre = [] ∧ words post = [] ∧
      trim (source ls) = source mid := by
  obtain ⟨pre, rest, rfl, hpre, hdrop⟩ := exists_dropBlanks_eq h ha
  have hrest : rest ⊆ pre ++ rest := List.subset_append_right pre rest
  have hblanks : AsciiBlanks (source rest) := by
    rw [source_append] at ha
    exact (asciiBlanks_append.mp ha).2
  obtain ⟨mid, post, rfl, hpost, htrim⟩ := exists_trimRight_eq h.right
    (fun l hl => hc l (hrest hl)) (fun l hl => hn l (hrest hl)) hblanks
  exact ⟨pre, mid, post, by simp, hpre, hpost, by rw [trim, hdrop, htrim]⟩

theorem words_append (a b : List Lexeme) : words (a ++ b) = words a ++ words b :=
  List.filterMap_append

theorem words_map_bare (ls : List Lexeme) : words (ls.map bare) = words ls := by
  rw [words, List.filterMap_map]
  refine List.filterMap_congr fun l _ => ?_
  cases l <;> rfl

end Lexeme

/-! ## Statements that were ended -/

namespace Piece

/-- No trigger body is open where a separator is. -/
theorem openBodies_of_mem {piece ls : List Lexeme} {p : Piece} (h : p ∈ pieces piece ls)
    (ht : p.terminated = true) : openBodies (words p.lexemes) = 0 := by
  induction ls generalizing piece with
  | nil =>
    by_cases hp : piece = []
    · simp [pieces, hp] at h
    · obtain rfl : p = ⟨piece, false⟩ := by simpa [pieces, hp] using h
      cases ht
  | cons l ls ih =>
    rw [pieces] at h
    split at h
    case isTrue hsep =>
      rcases List.mem_cons.mp h with rfl | h
      · exact hsep.2
      · exact ih h
    case isFalse => exact ih h

/-- The characters of a piece are characters of the text. -/
theorem source_subset {cs : List Char} {p : Piece} (h : p ∈ pieces [] (Lexeme.lexemes cs)) :
    source p.lexemes ⊆ cs := by
  intro c hc
  obtain ⟨l, hl, hmem⟩ := List.mem_flatMap.mp hc
  have hwhole : l ∈ (pieces [] (Lexeme.lexemes cs)).flatMap whole :=
    List.mem_flatMap.mpr ⟨p, h, List.mem_append_left _ hl⟩
  rw [flatMap_whole_pieces, List.nil_append] at hwhole
  rw [← source_lexemes cs]
  exact List.mem_flatMap.mpr ⟨l, hwhole, hmem⟩

variable {p : Piece}

theorem asciiBlanks_bare {ls : List Lexeme} (h : AsciiBlanks (source ls)) :
    AsciiBlanks (source (ls.map Lexeme.bare)) := by
  intro c hc
  obtain ⟨l, hl, hmem⟩ := List.mem_flatMap.mp hc
  obtain ⟨k, hk, rfl⟩ := List.mem_map.mp hl
  cases hcomment : k.isComment with
  | true =>
    obtain rfl : c = ' ' := by simpa [Lexeme.bare, hcomment, text] using hmem
    decide
  | false =>
    rw [Lexeme.bare, hcomment] at hmem
    exact h c (List.mem_flatMap.mpr ⟨k, hk, hmem⟩)

/-- **The words of a statement's text** are those that were read. -/
theorem Cut.words_sql (h : p.Cut) (ht : p.terminated = true)
    (ha : AsciiBlanks (source p.lexemes)) :
    words (Lexeme.lexemes p.sql) = words p.lexemes := by
  have hclosed : ∀ l ∈ p.lexemes.map Lexeme.bare, l.closed = true := by
    refine List.forall_mem_map.mpr fun l hl => ?_
    cases hcomment : l.isComment with
    | true => simp [Lexeme.bare, hcomment, Lexeme.closed]
    | false =>
      rw [Lexeme.bare, hcomment]
      exact h.closed ht l hl hcomment
  have hbare : ∀ l ∈ p.lexemes.map Lexeme.bare, l.isComment = false :=
    List.forall_mem_map.mpr fun l _ => isComment_bare l
  obtain ⟨pre, mid, post, hls, hpre, hpost, htrim⟩ :=
    exists_trim_eq h.lexed.bare hclosed hbare (asciiBlanks_bare ha)
  have hmid : Lexed mid := by
    have hlexed := h.lexed.bare
    rw [hls] at hlexed
    exact hlexed.left.right
  calc words (Lexeme.lexemes p.sql)
    _ = words mid := by rw [sql, htrim, lexemes_source hmid]
    _ = words (pre ++ mid ++ post) := by
      rw [words_append, words_append, hpre, hpost, List.nil_append, List.append_nil]
    _ = words p.lexemes := by rw [← hls, words_map_bare]

end Piece

namespace Statement

/-- A statement that another one follows leaves no trigger body open when it is read again. -/
theorem bodies_split {text : String} (h : AsciiBlanks text.toList) :
    ∀ cs ∈ ((split text).map (·.sql.toList)).dropLast, bodies cs = 0 := by
  rw [map_sql_split, ← List.map_dropLast]
  intro cs hcs
  obtain ⟨p, hp, rfl⟩ := List.mem_map.mp hcs
  have hmem : p ∈ statementPieces text.toList := (List.dropLast_sublist _).subset hp
  have hpiece : p ∈ pieces [] (lexemes text.toList) := List.mem_of_mem_filter hmem
  have hcut := (Piece.cut_of_mem_statementPieces hmem).1
  have hterm := terminated_of_mem_dropLast hp
  rw [bodies, hcut.words_sql hterm (h.mono (Piece.source_subset hpiece))]
  exact Piece.openBodies_of_mem hpiece hterm

/-- Statements that leave no body open are split into the same again. -/
theorem map_split_joined {ss : List (List Char)} (h : ∀ s ∈ ss, Standalone s)
    (hc : ∀ s ∈ ss.dropLast, Closed s) (hb : ∀ s ∈ ss.dropLast, bodies s = 0) :
    (split (String.ofList (joined [';'] ss))).map (fun s => (s.sql.toList, s.terminated)) =
      ss.dropLast.map (·, true) ++ ss.getLast?.toList.map (·, false) := by
  have hsql : ∀ s ∈ ss, ∀ terminated, (Piece.mk (lexemes s) terminated).sql = s :=
    fun s hs _ => sql_eq_self (h s hs) rfl
  have hlast : ∀ s ∈ ss.getLast?.toList, s ∈ ss := fun s hs =>
    List.mem_of_getLast? (Option.mem_toList.mp hs)
  have hfirst : ∀ s ∈ ss.dropLast, s ∈ ss := (List.dropLast_sublist ss).subset
  rw [map_split, String.toList_ofList, statementPieces, pieces_joined h hc hb,
    List.filter_eq_self.mpr ?_, List.map_append, List.map_map, List.map_map]
  · congr 1
    · exact List.map_congr_left fun s hs => by simp [hsql s (hfirst s hs)]
    · exact List.map_congr_left fun s hs => by simp [hsql s (hlast s hs)]
  · refine List.forall_mem_append.mpr ⟨List.forall_mem_map.mpr fun s hs => ?_,
      List.forall_mem_map.mpr fun s hs => ?_⟩
    · simpa [hsql s (hfirst s hs)] using (h s (hfirst s hs)).ne_nil
    · simpa [hsql s (hlast s hs)] using (h s (hlast s hs)).ne_nil

/-- **The normal form of a text.** Where all white space is ASCII's, the statements joined by `;`
are split into the same statements, all but the last ended. Each of them is trimmed and holds no
comment. -/
theorem split_join_eq {text : String} (h : AsciiBlanks text.toList) :
    let sqls := (split text).map (·.sql)
    (split (join ";" sqls)).map (·.sql) = sqls ∧
      (split (join ";" sqls)).map (fun s => (s.sql, s.terminated)) =
        sqls.dropLast.map (·, true) ++ sqls.getLast?.toList.map (·, false) ∧
      ∀ sql ∈ sqls, sql ≠ "" ∧ trim sql.toList = sql.toList ∧
        ∀ l ∈ lexemes sql.toList, l.isComment = false := by
  intro sqls
  have hstandalone := standalone_split text
  have hjoined : join ";" sqls = String.ofList (joined [';'] ((split text).map (·.sql.toList))) := by
    rw [join, List.map_map]
    rfl
  have hpairs : (split (join ";" sqls)).map (fun s => (s.sql, s.terminated)) =
      sqls.dropLast.map (·, true) ++ sqls.getLast?.toList.map (·, false) := by
    have hmap := congrArg (List.map fun x : List Char × Bool => (String.ofList x.1, x.2))
      (map_split_joined hstandalone (closed_split text) (bodies_split h))
    rw [← hjoined, List.map_map, ← List.map_dropLast, List.getLast?_map] at hmap
    simpa [sqls, Function.comp_def, Option.toList_map, ← List.map_dropLast] using hmap
  refine ⟨?_, hpairs, ?_⟩
  · have hfst := congrArg (List.map Prod.fst) hpairs
    rw [List.map_map] at hfst
    refine hfst.trans ?_
    rcases List.eq_nil_or_concat sqls with hnil | ⟨init, sql, hconcat⟩
    · rw [hnil]
      rfl
    · rw [hconcat]
      simp [Function.comp_def]
  · intro sql hsql
    obtain ⟨s, hs, rfl⟩ := List.mem_map.mp hsql
    have hs' := hstandalone s.sql.toList (List.mem_map_of_mem hs)
    exact ⟨(slice?_split hs).1, hs'.trimmed, hs'.bare⟩

/-- Comments, blanks, a trigger body and a bracket that is never closed. -/
def untidy : String :=
  "/* a;b */ CREATE TEMP TRIGGER t BEGIN SELECT 1; END -- ;\n; ;\t'c;'\x0b;[open; "

/-- The statements of an untidy text come back as they are. -/
theorem split_join_untidy :
    AsciiBlanks untidy.toList ∧
      (split (join ";" ["CREATE TEMP TRIGGER t BEGIN SELECT 1; END", "'c;'", "[open;"])).map
          (fun s => (s.sql, s.terminated)) =
        [("CREATE TEMP TRIGGER t BEGIN SELECT 1; END", true), ("'c;'", true), ("[open;", false)] := by
  have hblanks : AsciiBlanks untidy.toList := by decide
  have hsplit : (split untidy).map (·.sql) =
      ["CREATE TEMP TRIGGER t BEGIN SELECT 1; END", "'c;'", "[open;"] := by decide
  have hjoined := (split_join_eq hblanks).2.1
  rw [hsplit] at hjoined
  exact ⟨hblanks, hjoined⟩

end Statement

end SqlConsole
