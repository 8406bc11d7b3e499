import SqlConsole.Proofs.Statement.Completeness

/-!
# Texts that grow

Behind a `;` that separates, a text is read as if it began there. A text that stops in front of such
a `;` is known by its reading (`Scan.separates`); whatever is put behind the `;` leaves the
fragments before it as they are, and its own fragments only stand further back
(`fragments_separator`).

Every fragment that a `;` ends comes from such a place in the text (`exists_separator`). So a text
is split into what it was split into up to there and what the rest of it is split into. By induction
on the length of the text, statements that are ended stay whatever the text is made to go on with
(`Statement.ended_prefix_split_append`).
-/

namespace SqlConsole

open Text Lexeme

/-- The span, in a text with `n` bytes put in front. -/
def Text.Span.shift (n : Nat) (s : Span) : Span := ⟨n + s.start, n + s.stop⟩

/-- The fragment, in a text with `n` bytes put in front. -/
def Fragment.shift (n : Nat) (f : Fragment) : Fragment := { f with span := f.span.shift n }

/-- The statement, in a text with `n` bytes put in front. -/
def Statement.shift (n : Nat) (s : Statement) : Statement := { s with span := s.span.shift n }

/-! ## Pieces at a separator -/

section Pieces

variable {piece a : List Lexeme}

/-- The pieces of lexemes in front of a separator, and of the separator. -/
theorem pieces_concat_separator (h : openBodies (words (unfinished piece a)) = 0) :
    pieces piece (a ++ [.symbol ';']) =
      (pieces piece a).filter (·.terminated) ++ [⟨unfinished piece a, true⟩] := by
  rw [pieces_append_eq, pieces, if_pos ⟨rfl, h⟩]
  rfl

/-- **Behind a separator the pieces begin anew.** -/
theorem pieces_separator (h : openBodies (words (unfinished piece a)) = 0) (b : List Lexeme) :
    pieces piece (a ++ .symbol ';' :: b) = pieces piece (a ++ [.symbol ';']) ++ pieces [] b := by
  rw [pieces_concat_separator h, pieces_append_eq, pieces, if_pos ⟨rfl, h⟩, List.append_assoc]
  rfl

theorem terminated_of_mem_concat_separator (h : openBodies (words (unfinished piece a)) = 0) :
    ∀ p ∈ pieces piece (a ++ [.symbol ';']), p.terminated = true := by
  rw [pieces_concat_separator h]
  exact List.forall_mem_append.mpr
    ⟨fun p hp => (List.mem_filter.mp hp).2, List.forall_mem_singleton.mpr rfl⟩

/-- A fragment that a separator ends stops in front of one. -/
theorem exists_separator_of_mem_place {ls : List Lexeme} {start : Nat} {f : Fragment}
    (hf : f ∈ place start (pieces piece ls)) (ht : f.terminated = true) :
    ∃ a b, ls = a ++ .symbol ';' :: b ∧ openBodies (words (unfinished piece a)) = 0 ∧
      f.span.stop = start + byteSize (source (piece ++ a)) := by
  induction ls generalizing piece start with
  | nil =>
    by_cases hp : piece = []
    · simp [pieces, hp, place] at hf
    · obtain rfl : f = _ := by simpa [pieces, hp, place] using hf
      cases ht
  | cons l ls ih =>
    rw [pieces] at hf
    split at hf
    case isTrue hsep =>
      obtain ⟨rfl, hbodies⟩ := hsep
      rcases List.mem_cons.mp hf with rfl | hf
      · exact ⟨[], ls, rfl, hbodies, by simp⟩
      · -- It stands in the rest, whose first piece begins behind this separator.
        obtain ⟨a, b, rfl, hsep, hstop⟩ := ih hf
        refine ⟨.symbol ';' :: a, b, rfl, ?_, ?_⟩
        · rw [unfinished, if_pos ⟨rfl, hbodies⟩]
          exact hsep
        · rw [hstop]
          simp [Lexeme.text, Char.utf8Size, Nat.add_assoc]
    case isFalse hsep =>
      obtain ⟨a, b, rfl, hbodies, hstop⟩ := ih hf
      refine ⟨l :: a, b, rfl, ?_, ?_⟩
      · rw [unfinished, if_neg hsep]
        exact hbodies
      · rw [hstop, List.append_assoc, List.singleton_append]

end Pieces

/-! ## Places -/

/-- Pieces with separators, and others behind them. -/
theorem place_append {ps : List Piece} (h : ∀ p ∈ ps, p.terminated = true) (start : Nat)
    (qs : List Piece) :
    place start (ps ++ qs) =
      place start ps ++ place (start + byteSize (source (ps.flatMap Piece.whole))) qs := by
  induction ps generalizing start with
  | nil => rfl
  | cons p ps ih =>
    obtain ⟨hp, hps⟩ := List.forall_mem_cons.mp h
    have hwhole : byteSize (source p.whole) = byteSize (source p.lexemes) + 1 := by
      simp [Piece.whole, hp, Lexeme.text, Char.utf8Size]
    rw [List.cons_append, place, place, ih hps, List.flatMap_cons, source_append, byteSize_append,
      hwhole, List.cons_append]
    simp only [Nat.add_assoc]

/-- Pieces that stand further back. -/
theorem place_add (n start : Nat) (ps : List Piece) :
    place (n + start) ps = (place start ps).map (Fragment.shift n) := by
  induction ps generalizing start with
  | nil => rfl
  | cons p ps ih =>
    rw [place, place, List.map_cons, ← ih]
    simp only [Fragment.shift, Span.shift, Nat.add_assoc]

/-! ## Texts at a separator -/

section Texts

variable {x : List Char}

/-- In front of a separator nothing is open. -/
theorem Scan.separates_iff {s : Scan} :
    s.separates = true ↔ s.mode = .plain ∧ s.nesting.depth = 0 := by
  rw [separates, Bool.and_eq_true, beq_iff_eq, beq_iff_eq]

/-- **A `;` that separates stands between two texts.** The fragments of the first are those that it
has alone, and so are the fragments of the second, but that they stand further back. -/
theorem fragments_separator (h : (Scan.run {} x).2.separates = true) (y : List Char) :
    Scan.fragments (x ++ ';' :: y) =
      Scan.fragments (x ++ [';']) ++
        (Scan.fragments y).map (Fragment.shift (byteSize (x ++ [';']))) := by
  obtain ⟨hmode, hdepth⟩ := Scan.separates_iff.mp h
  rw [depth_run] at hdepth
  have hlast := closed_getLast_of_mode hmode
  have hwhole : source ((pieces [] (lexemes x ++ [.symbol ';'])).flatMap Piece.whole) =
      x ++ [';'] := by
    rw [Piece.flatMap_whole_pieces, List.nil_append, source_append, source_lexemes]
    rfl
  rw [fragments_eq_place_pieces, fragments_eq_place_pieces, fragments_eq_place_pieces,
    lexemes_semicolon hlast, lexemes_semicolon hlast, lexemes_nil, pieces_separator hdepth,
    place_append (terminated_of_mem_concat_separator hdepth), hwhole, ← place_add, Nat.zero_add,
    Nat.add_zero]

/-- **A fragment that a `;` ends** stops in front of one that separates. -/
theorem exists_separator {cs : List Char} {f : Fragment} (hf : f ∈ Scan.fragments cs)
    (ht : f.terminated = true) :
    ∃ x y, cs = x ++ ';' :: y ∧ (Scan.run {} x).2.separates = true ∧ f.span.stop = byteSize x := by
  rw [fragments_eq_place_pieces] at hf
  obtain ⟨a, b, hls, hbodies, hstop⟩ := exists_separator_of_mem_place hf ht
  have hlexed := lexed_lexemes cs
  rw [hls] at hlexed
  have ha : lexemes (source a) = a := lexemes_source hlexed.left
  refine ⟨source a, source b, ?_, Scan.separates_iff.mpr ⟨?_, ?_⟩, by simpa using hstop⟩
  · rw [← source_lexemes cs, hls, source_append, source_cons]
    rfl
  · rw [Scan.run_snd, ha]
    exact Scan.mode_of_lexed_semicolon hlexed
  · rw [depth_run, ha]
    exact hbodies

end Texts

namespace Statement

/-- The statements of fragments that stand further back. -/
theorem map_shift_fragments (n : Nat) (fs : List Fragment) :
    ((fs.map (Fragment.shift n)).filter (!·.sql.isEmpty)).map ofFragment =
      ((fs.filter (!·.sql.isEmpty)).map ofFragment).map (shift n) := by
  rw [List.filter_map, List.map_map, List.map_map]
  rfl

/-- **A text is split at each separator**: into the statements up to there, and those of the
rest. -/
theorem split_separator {x : List Char} (h : (Scan.run {} x).2.separates = true) (y : List Char) :
    split (String.ofList (x ++ ';' :: y)) =
      split (String.ofList (x ++ [';'])) ++
        (split (String.ofList y)).map (shift (byteSize (x ++ [';']))) := by
  simp only [split, String.toList_ofList]
  rw [fragments_separator h, List.filter_append, List.map_append, map_shift_fragments]

/-- Up to a separator all statements are ended. -/
theorem terminated_split_separator {x : List Char} (h : (Scan.run {} x).2.separates = true) :
    ∀ s ∈ split (String.ofList (x ++ [';'])), s.terminated = true := by
  obtain ⟨hmode, hdepth⟩ := Scan.separates_iff.mp h
  have hcomplete : isComplete (String.ofList x ++ ";") = true :=
    isComplete_semicolon (by simpa using hmode) (by simpa using hdepth)
  rw [String.ofList_append]
  exact terminated_of_isComplete hcomplete

/-- **What is ended stays.** The statements of a text that are ended are the first ones of any text
that begins with it, spans included. -/
theorem ended_prefix_split_append (cs more : List Char) :
    (split (String.ofList cs)).filter (·.terminated) <+: split (String.ofList (cs ++ more)) := by
  induction hn : cs.length using Nat.strongRecOn generalizing cs with
  | ind n ih =>
    by_cases hended : ∃ s ∈ split (String.ofList cs), s.terminated = true
    · -- Up to the separator both texts are the same; behind it the rest is a shorter text.
      obtain ⟨s, hs, ht⟩ := hended
      obtain ⟨f, hf, rfl⟩ := List.mem_map.mp hs
      have hf := List.mem_of_mem_filter hf
      rw [String.toList_ofList] at hf
      obtain ⟨x, y, rfl, hsep, -⟩ := exists_separator hf ht
      have hlength : y.length < n := by
        rw [← hn, List.length_append, List.length_cons]
        omega
      have hends : (split (String.ofList (x ++ [';']))).filter (·.terminated) =
          split (String.ofList (x ++ [';'])) :=
        List.filter_eq_self.mpr (terminated_split_separator hsep)
      have hrest : ((split (String.ofList y)).map (shift (byteSize (x ++ [';'])))).filter
          (·.terminated) =
            ((split (String.ofList y)).filter (·.terminated)).map
              (shift (byteSize (x ++ [';']))) := by
        rw [List.filter_map]
        rfl
      rw [List.append_assoc, List.cons_append, split_separator hsep y,
        split_separator hsep (y ++ more), List.filter_append, hends, hrest]
      exact (List.prefix_append_right_inj _).mpr ((ih _ hlength y rfl).map _)
    · have hnone : (split (String.ofList cs)).filter (·.terminated) = [] :=
        List.filter_eq_nil_iff.mpr fun s hs ht => hended ⟨s, hs, ht⟩
      rw [hnone]
      exact List.nil_prefix

/-- **Splitting is incremental.** Where a `;` ends a fragment of a text, the text can be cut behind
it: it has the statements of the first part, and then those of the second part, whose spans count
from there. So a text that goes on keeps the statements that were ended, where they were. -/
theorem split_incremental (text : String) :
    (∀ f ∈ Scan.fragments text.toList, f.terminated = true →
      ∃ before behind : String,
        slice? text.toList ⟨0, f.span.stop + 1⟩ = some before.toList ∧
        slice? text.toList ⟨f.span.stop + 1, byteSize text.toList⟩ = some behind.toList ∧
        split text = split before ++ (split behind).map (shift (f.span.stop + 1))) ∧
      ∀ more : String, (split text).filter (·.terminated) <+: split (text ++ more) := by
  refine ⟨fun f hf ht => ?_, fun more => ?_⟩
  · obtain ⟨x, y, htext, hsep, hstop⟩ := exists_separator hf ht
    have hcut : text.toList = [] ++ ((x ++ [';']) ++ y) := by simpa using htext
    have hsize : f.span.stop + 1 = byteSize (x ++ [';']) := by
      rw [hstop, byteSize_append]
      rfl
    refine ⟨String.ofList (x ++ [';']), String.ofList y, ?_, ?_, ?_⟩
    · have hslice := slice?_append [] (x ++ [';']) y
      rw [byteSize_nil, Nat.zero_add] at hslice
      rw [hsize, String.toList_ofList, hcut]
      exact hslice
    · have hslice := slice?_append (x ++ [';']) y []
      rw [List.append_nil, ← byteSize_append] at hslice
      rw [hsize, String.toList_ofList, hcut]
      exact hslice
    · rw [hsize, ← split_separator hsep, ← htext, String.ofList_toList]
  · have hprefix := ended_prefix_split_append text.toList more.toList
    rwa [← String.toList_append, String.ofList_toList, String.ofList_toList] at hprefix

/-- A trigger is ended by the `;` behind its `END`, and the text is cut there. -/
theorem split_incremental_trigger :
    let text := "CREATE TRIGGER r BEGIN X; END; é"
    let f : Fragment := ⟨⟨0, 29⟩, "CREATE TRIGGER r BEGIN X; END".toList, true⟩
    f ∈ Scan.fragments text.toList ∧ f.terminated = true ∧
      ∃ before behind : String,
        slice? text.toList ⟨0, f.span.stop + 1⟩ = some before.toList ∧
        slice? text.toList ⟨f.span.stop + 1, byteSize text.toList⟩ = some behind.toList ∧
        split text = split before ++ (split behind).map (shift (f.span.stop + 1)) :=
  have hf : (⟨⟨0, 29⟩, "CREATE TRIGGER r BEGIN X; END".toList, true⟩ : Fragment) ∈
      Scan.fragments "CREATE TRIGGER r BEGIN X; END; é".toList := by decide
  ⟨hf, rfl, (split_incremental "CREATE TRIGGER r BEGIN X; END; é").1 _ hf rfl⟩

end Statement

end SqlConsole
