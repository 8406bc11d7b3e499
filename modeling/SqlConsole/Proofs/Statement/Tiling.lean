import Mathlib.Data.List.Forall2
import SqlConsole.Proofs.Statement.Bytes
import SqlConsole.Proofs.Statement.Rejoining

/-!
# Spans tile the text

The fragments of a text cover it without loss or overlap (`Tiled`): they stand one behind the
other, with one separator between two of them, and put together again they are the text. All of
this is read off the place where a piece stands (`Stands`).

`Statement.split` drops no fragment that has anything to say. What it leaves out is `Hollow`, white
space and comments, and what it keeps is tidy.
-/

namespace SqlConsole

open Text Lexeme

/-- The text of a fragment and its separator, if its span is a slice of the text. -/
def Fragment.whole (text : List Char) (f : Fragment) : Option (List Char) :=
  (slice? text f.span).map (· ++ if f.terminated then [';'] else [])

/-- **Fragments that cover a text** without loss or overlap. -/
structure Tiled (text : List Char) (fs : List Fragment) : Prop where
  /-- The first one begins where the text does. -/
  first : ∀ f ∈ fs.head?, f.span.start = 0
  /-- Only a last one has no separator, and the next one begins right behind it. -/
  adjacent : fs.IsChain fun f g => f.terminated = true ∧ g.span.start = f.span.stop + 1
  /-- The byte behind a terminated one is a `;`. -/
  separator : ∀ f ∈ fs, f.terminated = true → (Utf8.encode text)[f.span.stop]? = some 0x3B
  /-- Any other ends where the text does. -/
  last : ∀ f ∈ fs, f.terminated = false → f.span.stop = byteSize text
  /-- All spans are slices, and together with the separators they are the text. -/
  whole : (fs.mapM (Fragment.whole text)).map List.flatten = some text

/-- Nothing but white space and comments. -/
inductive Hollow : List Char → Prop
  | nil : Hollow []
  | blank {c cs} (hc : isBlank c = true) (h : Hollow cs) : Hollow (c :: cs)
  | comment {l : Lexeme} {cs} (hc : l.isComment = true) (hf : l.Fits cs) (h : Hollow cs) :
      Hollow (l.text ++ cs)

/-! ## Where pieces stand -/

/-- A fragment stands in the text where its piece does. -/
structure Stands (text before behind : List Char) (f : Fragment) (p : Piece) : Prop where
  text_eq : text = before ++ (source p.whole ++ behind)
  last : p.terminated = false → behind = []
  fragment_eq :
    f = ⟨⟨byteSize before, byteSize before + byteSize (source p.lexemes)⟩, p.sql, p.terminated⟩

namespace Stands

variable {text before behind : List Char} {f : Fragment} {p : Piece}

theorem slice?_eq (h : Stands text before behind f p) :
    slice? text f.span = some (source p.lexemes) := by
  obtain ⟨rfl, -, rfl⟩ := h
  rw [Piece.whole, source_append, List.append_assoc]
  exact slice?_append _ _ _

theorem sql_eq (h : Stands text before behind f p) :
    f.sql = trim (source (p.lexemes.map bare)) := by
  rw [h.fragment_eq]
  rfl

theorem whole_eq (h : Stands text before behind f p) : f.whole text = some (source p.whole) := by
  rw [Fragment.whole, h.slice?_eq, h.fragment_eq, Piece.whole]
  cases p.terminated <;> simp [Lexeme.text]

theorem separator_eq (h : Stands text before behind f p) (ht : f.terminated = true) :
    (Utf8.encode text)[f.span.stop]? = some 0x3B := by
  have hp : p.terminated = true := by
    rw [h.fragment_eq] at ht
    exact ht
  have hstop : f.span.stop = (Utf8.encode (before ++ source p.lexemes)).length := by
    rw [h.fragment_eq, length_encode, byteSize_append]
  have htext : text = (before ++ source p.lexemes) ++ ';' :: behind := by
    rw [h.text_eq, Piece.whole, hp]
    simp [Lexeme.text]
  have hbyte : String.utf8EncodeChar ';' = [0x3B] := by decide
  rw [hstop, htext, Utf8.encode_append, List.getElem?_append_right (Nat.le_refl _), Nat.sub_self,
    Utf8.encode_cons, hbyte]
  rfl

theorem stop_eq (h : Stands text before behind f p) (ht : f.terminated = false) :
    f.span.stop = byteSize text := by
  have hp : p.terminated = false := by
    rw [h.fragment_eq] at ht
    exact ht
  rw [h.text_eq, h.last hp, h.fragment_eq, Piece.whole, hp]
  simp

end Stands

/-- **All pieces stand in the text**, each of them behind those before it. -/
theorem forall₂_stands {ps : List Piece} (h : ps.Pairwise fun p _ => p.terminated = true)
    (past : List Char) :
    List.Forall₂
      (fun f p => ∃ before behind,
        Stands (past ++ source (ps.flatMap Piece.whole)) before behind f p)
      (place (byteSize past) ps) ps := by
  induction ps generalizing past with
  | nil => exact .nil
  | cons p ps ih =>
    obtain ⟨hp, hps⟩ := List.pairwise_cons.mp h
    have hlast : p.terminated = false → source (ps.flatMap Piece.whole) = [] := by
      intro ht
      cases ps with
      | nil => rfl
      | cons q qs => simp [hp q List.mem_cons_self] at ht
    refine .cons ⟨past, source (ps.flatMap Piece.whole), by simp, hlast, rfl⟩ ?_
    cases ps with
    | nil => exact .nil
    | cons q qs =>
      have hterm : p.terminated = true := hp q List.mem_cons_self
      have hsource : past ++ source ((p :: q :: qs).flatMap Piece.whole) =
          (past ++ source p.lexemes ++ [';']) ++ source ((q :: qs).flatMap Piece.whole) := by
        simp [Piece.whole, hterm, Lexeme.text]
      have hstart : byteSize past + byteSize (source p.lexemes) + 1 =
          byteSize (past ++ source p.lexemes ++ [';']) := by
        simp [Char.utf8Size, Nat.add_assoc]
      rw [hsource, hstart]
      exact ih hps _

theorem isChain_place {ps : List Piece} (h : ps.Pairwise fun p _ => p.terminated = true)
    (start : Nat) :
    (place start ps).IsChain fun f g => f.terminated = true ∧ g.span.start = f.span.stop + 1 := by
  induction ps generalizing start with
  | nil => exact .nil
  | cons p ps ih =>
    obtain ⟨hp, hps⟩ := List.pairwise_cons.mp h
    cases ps with
    | nil => exact List.IsChain.singleton _
    | cons q qs =>
      exact List.isChain_cons_cons.mpr ⟨⟨hp q List.mem_cons_self, rfl⟩, ih hps _⟩

theorem exists_of_mem_left {α β : Type} {R : α → β → Prop} {as : List α} {bs : List β}
    (h : List.Forall₂ R as bs) {a : α} (ha : a ∈ as) : ∃ b ∈ bs, R a b := by
  induction h with
  | nil => cases ha
  | cons hab _ ih =>
    rcases List.mem_cons.mp ha with rfl | ha
    · exact ⟨_, List.mem_cons_self, hab⟩
    · obtain ⟨b, hb, hr⟩ := ih ha
      exact ⟨b, List.mem_cons_of_mem _ hb, hr⟩

theorem mapM_eq_some {α β γ : Type} {f : α → Option γ} {g : β → γ} {as : List α} {bs : List β}
    (h : List.Forall₂ (fun a b => f a = some (g b)) as bs) : as.mapM f = some (bs.map g) := by
  induction h with
  | nil => rfl
  | cons hab _ ih => simp [List.mapM_cons, hab, ih]

/-- The pieces of a text stand where its fragments say. -/
theorem stands_fragments (text : List Char) :
    List.Forall₂ (fun f p => ∃ before behind, Stands text before behind f p)
      (Scan.fragments text) (pieces [] (lexemes text)) := by
  have hstands := forall₂_stands (Piece.pairwise_pieces [] (lexemes text)) []
  rw [Piece.flatMap_whole_pieces, List.nil_append, List.nil_append, source_lexemes] at hstands
  rw [Scan.fragments, Scan.run_eq_place ⟨rfl, rfl, rfl⟩ rfl rfl]
  exact hstands

/-- The fragments of a text cover it. -/
theorem tiled_fragments (text : List Char) : Tiled text (Scan.fragments text) := by
  have hpairwise := Piece.pairwise_pieces [] (lexemes text)
  have hstands := stands_fragments text
  have hplace : Scan.fragments text = place 0 (pieces [] (lexemes text)) :=
    Scan.run_eq_place ⟨rfl, rfl, rfl⟩ rfl rfl text
  refine ⟨?_, ?_, fun f hf ht => ?_, fun f hf ht => ?_, ?_⟩
  · rw [hplace]
    cases pieces [] (lexemes text) with
    | nil => simp [place]
    | cons p ps => simp [place]
  · rw [hplace]
    exact isChain_place hpairwise 0
  · obtain ⟨p, -, before, behind, h⟩ := exists_of_mem_left hstands hf
    exact h.separator_eq ht
  · obtain ⟨p, -, before, behind, h⟩ := exists_of_mem_left hstands hf
    exact h.stop_eq ht
  · have hwhole : (pieces [] (lexemes text)).flatMap (fun p => source p.whole) = text := by
      have hflat := congrArg source (Piece.flatMap_whole_pieces [] (lexemes text))
      rwa [List.nil_append, source_lexemes, source, List.flatMap_assoc] at hflat
    have hslices := hstands.imp fun f p h => show f.whole text = some (source p.whole) by
      obtain ⟨before, behind, h⟩ := h
      exact h.whole_eq
    rw [mapM_eq_some hslices, Option.map_some, ← List.flatMap_def, hwhole]

/-! ## What is left out -/

theorem Hollow.append {a b : List Char} (ha : ∀ c ∈ a, isBlank c = true) (hb : Hollow b) :
    Hollow (a ++ b) := by
  induction a with
  | nil => exact hb
  | cons c a ih =>
    obtain ⟨hc, ha⟩ := List.forall_mem_cons.mp ha
    exact .blank hc (ih ha)

/-- Lexemes of which no character outside comments is left. -/
theorem hollow_source {ls : List Lexeme} (h : Lexed ls)
    (hblank : ∀ c ∈ source (ls.map bare), isBlank c = true) : Hollow (source ls) := by
  induction ls with
  | nil => exact .nil
  | cons l ls ih =>
    rw [List.map_cons, source_cons] at hblank
    have hls := ih h.2 fun c hc => hblank c (List.mem_append_right _ hc)
    by_cases hc : l.isComment = true
    · exact .comment hc h.1 hls
    · have hbare : l.bare = l := by simp [bare, hc]
      rw [hbare] at hblank
      exact .append (fun c hc => hblank c (List.mem_append_left _ hc)) hls

namespace Statement

/-- A fragment has something to say if its text has a character that is not blank. -/
theorem any_not_isBlank {text : List Char} {f : Fragment} (hf : f ∈ Scan.fragments text) :
    (f.sql.any fun c => !Text.isBlank c) = !f.sql.isEmpty := by
  obtain ⟨p, -, _, _, h⟩ := exists_of_mem_left (stands_fragments text) hf
  cases hany : f.sql.any fun c => !Text.isBlank c with
  | true =>
    obtain ⟨c, hc, -⟩ := List.any_eq_true.mp hany
    simp [List.ne_nil_of_mem hc]
  | false =>
    have hblank : ∀ c ∈ f.sql, Text.isBlank c = true := by simpa using hany
    rw [h.sql_eq] at hblank ⊢
    rw [trim_eq_nil_of_isBlank hblank]
    rfl

/-- No fragment is left out but white space and comments. -/
theorem hollow_of_isBlank {text : List Char} {f : Fragment} (hf : f ∈ Scan.fragments text)
    (hblank : ∀ c ∈ f.sql, Text.isBlank c = true) :
    ∃ cs, slice? text f.span = some cs ∧ Hollow cs := by
  obtain ⟨p, hp, _, _, h⟩ := exists_of_mem_left (stands_fragments text) hf
  have hlexed : Lexed ([] ++ lexemes text) := lexed_lexemes text
  rw [h.sql_eq] at hblank
  have hsql : trim (source (p.lexemes.map bare)) = [] := trim_eq_nil_of_isBlank hblank
  exact ⟨_, h.slice?_eq,
    hollow_source (Piece.cut_of_mem hlexed trivial p hp).lexed (isBlank_of_trim_eq_nil hsql)⟩

theorem tidy_split {text : String} {s : Statement} (hs : s ∈ split text) : Tidy s.sql.toList := by
  obtain ⟨f, hf, rfl⟩ := List.mem_map.mp hs
  obtain ⟨hf, hne⟩ := List.mem_filter.mp hf
  obtain ⟨p, -, _, _, h⟩ := exists_of_mem_left (stands_fragments text.toList) hf
  have hne' : f.sql ≠ [] := by simpa using hne
  rw [ofFragment, String.toList_ofList]
  rw [h.sql_eq] at hne' ⊢
  exact tidy_trim hne'

/-- **Spans tile the text.** The fragments of a text cover it. Read by its bytes, the text gives the
same fragments, so that no slice is taken between two bytes of a character, those of the segments
and words inside a fragment included. The statements are the fragments with something to say, in
order, each of them tidy, and what is left out is white space and comments. -/
theorem spans_tile (text : String) :
    Tiled text.toList (Scan.fragments text.toList) ∧
      (∃ last, ByteScan.scan text.toList {} (Utf8.encode text.toList) =
        some (Scan.fragments text.toList, last)) ∧
      split text =
        ((Scan.fragments text.toList).filter fun f => f.sql.any fun c => !Text.isBlank c).map
          ofFragment ∧
      (∀ s ∈ split text, Tidy s.sql.toList) ∧
      ∀ f ∈ Scan.fragments text.toList, (∀ c ∈ f.sql, Text.isBlank c = true) →
        ∃ cs, slice? text.toList f.span = some cs ∧ Hollow cs := by
  have hsplit : split text =
      ((Scan.fragments text.toList).filter fun f => f.sql.any fun c => !Text.isBlank c).map
        ofFragment := by
    rw [split]
    exact congrArg _ (List.filter_congr fun f hf => (any_not_isBlank hf).symm)
  obtain ⟨last, hscan, -⟩ := ByteScan.scan_encode text.toList
  exact ⟨tiled_fragments text.toList, ⟨last, hscan⟩, hsplit, fun _ hs => tidy_split hs,
    fun _ hf hblank => hollow_of_isBlank hf hblank⟩

/-- Spans count bytes, and each of the two letters has two of them. -/
example : (Scan.fragments "é;--ß".toList).map (·.span) = [⟨0, 2⟩, ⟨3, 7⟩] := by decide

end Statement

end SqlConsole
