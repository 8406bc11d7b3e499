import Mathlib.Data.List.Forall2
import Mathlib.Tactic.MkIffOfInductiveProp
import SqlConsole.Proofs.Statement.Cutting
import SqlConsole.Statement.Split

/-!
# Letter case

Two texts that differ in nothing but the case of ASCII letters are cut at the same places
(`Statement.split_recased`). Both are read side by side. Whatever the scan looks at is a mark, which
is no letter, or a class of characters that holds all letters or none of them (`Recased.congr`), or
a word, which is compared in capitals. So the two readings agree in all but the letters they have
kept (`Scan.Twins`), character by character (`Scan.Twins.step`) and therefore to the end of the
texts (`Scan.Twins.run`).

Which letters differ in a statement is told by where they stand. The texts are read as one list of
pairs, and a statement is drawn from the pairs that stand at its span, with a space for each comment
(`DrawnFrom`).
-/

namespace SqlConsole

open Text

namespace Text

/-! ## Letters -/

/-- A character, in its own letter case or the other. Only the letters of ASCII have another. -/
def Recased (c d : Char) : Prop := d = c ∨ d = c.toUpper ∨ d = c.toLower

instance (c d : Char) : Decidable (Recased c d) := inferInstanceAs (Decidable (_ ∨ _ ∨ _))

/-- What letters are. -/
@[mk_iff]
structure IsLetter (c : Char) : Prop where
  toUpper : c.toUpper.isAlpha = true ∧ c.toUpper.toUpper = c.toUpper
  toLower : c.toLower.isAlpha = true ∧ c.toLower.toUpper = c.toUpper
  isWordChar : isWordChar c = true
  isQuote : isQuote c = false
  isSpace : isSpace c = false
  isBlank : isBlank c = false
  utf8Size : c.utf8Size = 1

theorem isAlpha_iff {c : Char} :
    c.isAlpha = true ↔ (65 ≤ c.val ∧ c.val ≤ 90) ∨ (97 ≤ c.val ∧ c.val ≤ 122) := by
  show (decide (65 ≤ c.val ∧ c.val ≤ 90) || (decide (97 ≤ c.val) && decide (c.val ≤ 122))) =
    true ↔ _
  simp only [Bool.or_eq_true, Bool.and_eq_true, decide_eq_true_eq]

theorem isLetter_of_isAlpha {c : Char} (h : c.isAlpha = true) : IsLetter c := by
  have hsize : c.toNat < 128 := by
    have hrange := isAlpha_iff.mp h
    simp only [UInt32.le_iff_toNat_le] at hrange
    change (65 ≤ c.toNat ∧ c.toNat ≤ 90) ∨ (97 ≤ c.toNat ∧ c.toNat ≤ 122) at hrange
    omega
  -- All letters are among the first 128 characters, so each can be looked up.
  have hall : ∀ n : Fin 128, (Char.ofNat n).isAlpha = true → IsLetter (Char.ofNat n) := by
    simp only [isLetter_iff]
    decide
  have hletter := hall ⟨c.toNat, hsize⟩
  rw [Char.ofNat_toNat] at hletter
  exact hletter h

/-- A quote is no letter. -/
theorem isAlpha_of_isQuote {c : Char} (h : isQuote c = true) : c.isAlpha = false := by
  rw [Bool.eq_false_iff]
  intro hc
  rw [(isLetter_of_isAlpha hc).isQuote] at h
  cases h

theorem toUpper_of_not_isAlpha {c : Char} (h : c.isAlpha = false) : c.toUpper = c := by
  refine dif_neg fun hlower => ?_
  rw [isAlpha_iff.mpr (Or.inr hlower)] at h
  cases h

theorem toLower_of_not_isAlpha {c : Char} (h : c.isAlpha = false) : c.toLower = c := by
  refine dif_neg fun hupper => ?_
  rw [isAlpha_iff.mpr (Or.inl hupper)] at h
  cases h

namespace Recased

variable {c d : Char}

theorem refl (c : Char) : Recased c c := Or.inl rfl

/-- What is changed is a letter, and becomes one that is the same in capitals. -/
theorem cases (h : Recased c d) :
    d = c ∨ c.isAlpha = true ∧ d.isAlpha = true ∧ d.toUpper = c.toUpper := by
  cases hc : c.isAlpha with
  | false =>
    left
    rcases h with rfl | rfl | rfl
    · rfl
    · exact toUpper_of_not_isAlpha hc
    · exact toLower_of_not_isAlpha hc
  | true =>
    have hletter := isLetter_of_isAlpha hc
    rcases h with rfl | rfl | rfl
    · exact Or.inl rfl
    · exact Or.inr ⟨rfl, hletter.toUpper⟩
    · exact Or.inr ⟨rfl, hletter.toLower⟩

theorem toUpper_eq (h : Recased c d) : d.toUpper = c.toUpper := by
  rcases h.cases with rfl | ⟨-, -, h⟩
  · rfl
  · exact h

/-- **What is the same for all letters does not tell the two apart.** -/
theorem congr (h : Recased c d) {α : Type} {f : Char → α} {a : α}
    (hf : ∀ c, c.isAlpha = true → f c = a) : f d = f c := by
  rcases h.cases with rfl | ⟨hc, hd, -⟩
  · rfl
  · rw [hf c hc, hf d hd]

/-- A mark is no letter. -/
theorem beq_eq (h : Recased c d) (mark : Char) (hmark : mark.isAlpha = false) :
    (d == mark) = (c == mark) := by
  refine h.congr (f := (· == mark)) fun c hc => beq_eq_false_iff_ne.mpr ?_
  rintro rfl
  rw [hmark] at hc
  cases hc

theorem isWordChar_eq (h : Recased c d) : isWordChar d = isWordChar c :=
  h.congr fun _ hc => (isLetter_of_isAlpha hc).isWordChar

theorem isQuote_eq (h : Recased c d) : isQuote d = isQuote c :=
  h.congr fun _ hc => (isLetter_of_isAlpha hc).isQuote

theorem isSpace_eq (h : Recased c d) : isSpace d = isSpace c :=
  h.congr fun _ hc => (isLetter_of_isAlpha hc).isSpace

theorem isBlank_eq (h : Recased c d) : isBlank d = isBlank c :=
  h.congr fun _ hc => (isLetter_of_isAlpha hc).isBlank

theorem utf8Size_eq (h : Recased c d) : d.utf8Size = c.utf8Size :=
  h.congr fun _ hc => (isLetter_of_isAlpha hc).utf8Size

theorem eq_of_isQuote (h : Recased c d) (hc : isQuote c = true) : d = c := by
  rcases h.cases with rfl | ⟨hletter, -, -⟩
  · rfl
  · rw [isAlpha_of_isQuote hc] at hletter
    cases hletter

end Recased

/-! ## Texts side by side -/

/-- Two texts that are drawn from pairs of characters: they hold the same of the pairs, in order,
and spaces that both have at the same places. -/
def DrawnFrom (pairs : List (Char × Char)) (a b : List Char) : Prop :=
  ∃ ws : List (Char × Char), ws.map (·.1) = a ∧ ws.map (·.2) = b ∧
    (ws.filter (· ≠ (' ', ' '))).Sublist pairs

/-- Pairs of a character and one of its letter cases. -/
def AllRecased (pairs : List (Char × Char)) : Prop := ∀ z ∈ pairs, Recased z.1 z.2

theorem AllRecased.byteSize_eq {pairs : List (Char × Char)} (h : AllRecased pairs) :
    byteSize (pairs.map (·.2)) = byteSize (pairs.map (·.1)) := by
  induction pairs with
  | nil => rfl
  | cons z pairs ih =>
    obtain ⟨hz, hpairs⟩ := List.forall_mem_cons.mp h
    rw [List.map_cons, List.map_cons, byteSize_cons, byteSize_cons, hz.utf8Size_eq, ih hpairs]

namespace DrawnFrom

variable {pairs : List (Char × Char)} {a b : List Char}

theorem nil (pairs : List (Char × Char)) : DrawnFrom pairs [] [] :=
  ⟨[], rfl, rfl, List.nil_sublist pairs⟩

/-- The next pair is left out. -/
theorem skip (h : DrawnFrom pairs a b) (z : Char × Char) : DrawnFrom (z :: pairs) a b := by
  obtain ⟨ws, ha, hb, hsub⟩ := h
  exact ⟨ws, ha, hb, hsub.cons z⟩

/-- The next pair is taken. -/
theorem take (h : DrawnFrom pairs a b) (z : Char × Char) :
    DrawnFrom (z :: pairs) (z.1 :: a) (z.2 :: b) := by
  obtain ⟨ws, rfl, rfl, hsub⟩ := h
  refine ⟨z :: ws, rfl, rfl, ?_⟩
  rw [List.filter_cons]
  split
  · exact hsub.cons_cons z
  · exact hsub.cons z

/-- A space stands for the next pair. -/
theorem space (h : DrawnFrom pairs a b) (z : Char × Char) :
    DrawnFrom (z :: pairs) (' ' :: a) (' ' :: b) := by
  obtain ⟨ws, rfl, rfl, hsub⟩ := h
  exact ⟨(' ', ' ') :: ws, rfl, rfl, hsub.cons z⟩

theorem reverse (h : DrawnFrom pairs a b) : DrawnFrom pairs.reverse a.reverse b.reverse := by
  obtain ⟨ws, rfl, rfl, hsub⟩ := h
  refine ⟨ws.reverse, List.map_reverse, List.map_reverse, ?_⟩
  rw [List.filter_reverse]
  exact hsub.reverse

/-- **Letters apart, the two texts are the same.** -/
theorem recased (h : DrawnFrom pairs a b) (hpairs : AllRecased pairs) :
    List.Forall₂ Recased a b := by
  obtain ⟨ws, rfl, rfl, hsub⟩ := h
  rw [List.forall₂_map_left_iff, List.forall₂_map_right_iff, List.forall₂_same]
  intro w hw
  by_cases hspace : w = (' ', ' ')
  · rw [hspace]
    exact .refl ' '
  · exact hpairs w (hsub.subset (List.mem_filter.mpr ⟨hw, decide_eq_true hspace⟩))

theorem dropWhile (h : DrawnFrom pairs a b) (hpairs : AllRecased pairs) :
    DrawnFrom pairs (a.dropWhile isBlank) (b.dropWhile isBlank) := by
  have hrecased := h.recased hpairs
  obtain ⟨ws, rfl, rfl, hsub⟩ := h
  induction ws with
  | nil => exact nil pairs
  | cons w ws ih =>
    rw [List.map_cons, List.map_cons] at hrecased ⊢
    obtain ⟨hw, hws⟩ := List.forall₂_cons.mp hrecased
    rw [List.dropWhile_cons, List.dropWhile_cons, hw.isBlank_eq]
    have htail : (ws.filter (· ≠ (' ', ' '))).Sublist pairs :=
      ((List.sublist_cons_self w ws).filter _).trans hsub
    split
    · exact ih htail hws
    · exact ⟨w :: ws, rfl, rfl, hsub⟩

theorem trim (h : DrawnFrom pairs a b) (hpairs : AllRecased pairs) :
    DrawnFrom pairs (Text.trim a) (Text.trim b) := by
  have hreverse : AllRecased pairs.reverse := fun z hz => hpairs z (List.mem_reverse.mp hz)
  have htrim := ((h.dropWhile hpairs).reverse.dropWhile hreverse).reverse
  rwa [List.reverse_reverse] at htrim

end DrawnFrom

end Text

/-! ## Scans side by side -/

/-- What ends a quoted token is a quote. -/
def Mode.Sound : Mode → Prop
  | quoted quote => isQuote quote = true
  | plain | bracketed | lineComment | blockOpening | blockComment | blockClosing => True

namespace Scan

/-- **Two readings that agree** in all but the letters they have kept. What they have kept is drawn
from the pairs that were read of the fragment at hand, last first. -/
structure Twins (read : List (Char × Char)) (s t : Scan) : Prop where
  mode : t.mode = s.mode
  sound : s.mode.Sound
  nesting : t.nesting = s.nesting
  settled : t.settled = s.settled
  word : t.word.map Char.toUpper = s.word.map Char.toUpper
  kept : DrawnFrom read s.kept t.kept
  start : t.start = s.start
  pos : t.pos = s.pos

theorem read_eq_of_toUpper {v w : List Char} (h : w.map Char.toUpper = v.map Char.toUpper)
    (n : Nesting) : n.read w = n.read v := by
  have hspells (keyword : String) : Nesting.spells w keyword = Nesting.spells v keyword := by
    rw [Nesting.spells, Nesting.spells, h]
  simp only [Nesting.read, hspells]

namespace Twins

variable {read : List (Char × Char)} {s t : Scan} {z : Char × Char} {next : Option (Char × Char)}

theorem separates_eq (h : Twins read s t) : t.separates = s.separates := by
  rw [separates, separates, h.mode, h.nesting]

theorem atEnd_eq (h : Twins read s t) : t.atEnd = s.atEnd := by
  rw [atEnd, atEnd, h.mode, h.nesting, h.settled]

theorem next_beq_eq (h : ∀ y ∈ next, Recased y.1 y.2) (mark : Char)
    (hmark : mark.isAlpha = false) :
    (next.map (·.2) == some mark) = (next.map (·.1) == some mark) := by
  cases next with
  | none => rfl
  | some y => exact (h y rfl).beq_eq mark hmark

/-- Outside quotes and comments. -/
theorem stepPlain (h : Twins read s t) (hz : Recased z.1 z.2)
    (hnext : ∀ y ∈ next, Recased y.1 y.2) :
    Twins (z :: read) (s.stepPlain z.1 (next.map (·.1))) (t.stepPlain z.2 (next.map (·.2))) := by
  have hgoes : (next.map (·.2)).any isWordChar = (next.map (·.1)).any isWordChar := by
    cases next with
    | none => rfl
    | some y => exact (hnext y rfl).isWordChar_eq
  -- The words at hand are the same in capitals, which is how keywords are told.
  have hletters : (z.2 :: t.word).map Char.toUpper = (z.1 :: s.word).map Char.toUpper := by
    rw [List.map_cons, List.map_cons, hz.toUpper_eq, h.word]
  have hnesting :
      t.nesting.read (z.2 :: t.word).reverse = s.nesting.read (z.1 :: s.word).reverse := by
    rw [h.nesting]
    refine read_eq_of_toUpper ?_ s.nesting
    rw [List.map_reverse, hletters, List.map_reverse]
  -- No test tells the two apart, so both readings take the same branch.
  rw [Scan.stepPlain, Scan.stepPlain, hz.beq_eq '-' rfl, hz.beq_eq '/' rfl,
    hz.beq_eq '[' rfl, hz.beq_eq ';' rfl, next_beq_eq hnext '-' rfl,
    next_beq_eq hnext '*' rfl, hz.isQuote_eq, hz.isWordChar_eq, hgoes, hz.isSpace_eq]
  split_ifs with hline hblock hq hbracket hword hmore hspace
  · exact { h with mode := rfl, sound := trivial, kept := h.kept.space z }
  · exact { h with mode := rfl, sound := trivial, kept := h.kept.space z }
  · have hmode : Mode.quoted z.2 = .quoted z.1 := congrArg Mode.quoted (hz.eq_of_isQuote hq)
    exact { h with
      mode := hmode, sound := hq, settled := rfl
      kept := h.kept.take z }
  · exact { h with mode := rfl, sound := trivial, settled := rfl, kept := h.kept.take z }
  · exact { h with settled := rfl, word := hletters, kept := h.kept.take z }
  · exact { h with nesting := hnesting, word := rfl, settled := rfl, kept := h.kept.take z }
  · exact { h with kept := h.kept.take z }
  · exact { h with settled := rfl, kept := h.kept.take z }

/-- **One character.** -/
theorem step (h : Twins read s t) (hz : Recased z.1 z.2) (hnext : ∀ y ∈ next, Recased y.1 y.2) :
    Twins (z :: read) (s.step z.1 (next.map (·.1))) (t.step z.2 (next.map (·.2))) := by
  have hpos : t.pos + z.2.utf8Size = s.pos + z.1.utf8Size := by rw [h.pos, hz.utf8Size_eq]
  rw [Scan.step, Scan.step, h.mode]
  cases hs : s.mode with
  | plain => exact { h.stepPlain hz hnext with pos := hpos }
  | quoted quote =>
    -- What ends the token is a quote, and so no letter.
    have hquote : (Mode.quoted quote).Sound := hs ▸ h.sound
    dsimp only
    rw [hz.beq_eq quote (isAlpha_of_isQuote hquote)]
    refine { h with mode := rfl, sound := ?_, kept := h.kept.take z, pos := hpos }
    split <;> [trivial; exact hquote]
  | bracketed =>
    dsimp only
    rw [hz.beq_eq ']' rfl]
    refine { h with mode := rfl, sound := ?_, kept := h.kept.take z, pos := hpos }
    split <;> trivial
  | lineComment =>
    dsimp only
    rw [hz.beq_eq '\n' rfl]
    split
    · exact { h with mode := rfl, sound := trivial, kept := h.kept.take z, pos := hpos }
    · exact { h with kept := h.kept.skip z, pos := hpos }
  | blockOpening =>
    exact { h with mode := rfl, sound := trivial, kept := h.kept.skip z, pos := hpos }
  | blockComment =>
    dsimp only
    rw [hz.beq_eq '*' rfl, next_beq_eq hnext '/' rfl]
    split
    · exact { h with mode := rfl, sound := trivial, kept := h.kept.skip z, pos := hpos }
    · exact { h with kept := h.kept.skip z, pos := hpos }
  | blockClosing =>
    exact { h with mode := rfl, sound := trivial, kept := h.kept.skip z, pos := hpos }

/-- Two readings without a fragment at hand. -/
theorem separate (h : Twins read s t) : Twins [] s.separate t.separate where
  mode := h.mode
  sound := h.sound
  nesting := rfl
  settled := rfl
  word := rfl
  kept := .nil []
  start := congrArg (· + 1) h.pos
  pos := congrArg (· + 1) h.pos

end Twins

/-! ## Where a scan is -/

/-- A reading of the first characters of `pairs` has come to `rest`, with what stands `before` the
fragment at hand and what was `read` of it, last first. -/
structure Reached (pairs before read rest : List (Char × Char)) (s : Scan) : Prop where
  pairs_eq : pairs = before ++ (read.reverse ++ rest)
  start : s.start = byteSize (before.map (·.1))
  pos : s.pos = byteSize (before.map (·.1)) + byteSize (read.reverse.map (·.1))

theorem start_step (s : Scan) (c : Char) (next : Option Char) :
    (s.step c next).start = s.start := by
  rw [step]
  cases s.mode <;> dsimp only [stepPlain] <;> split_ifs <;> rfl

namespace Reached

variable {pairs before read rest : List (Char × Char)} {s : Scan} {z : Char × Char}

theorem step (h : Reached pairs before read (z :: rest) s) (next : Option Char) :
    Reached pairs before (z :: read) rest (s.step z.1 next) where
  pairs_eq := by rw [h.pairs_eq, List.reverse_cons, List.append_assoc]; rfl
  start := (start_step s z.1 next).trans h.start
  pos := by
    rw [List.reverse_cons, List.map_append, byteSize_append, ← Nat.add_assoc, ← h.pos]
    rfl

theorem separate (h : Reached pairs before read (z :: rest) s) (hz : z.1 = ';') :
    Reached pairs (before ++ read.reverse ++ [z]) [] rest s.separate := by
  have hpos : s.separate.pos = byteSize ((before ++ read.reverse ++ [z]).map (·.1)) := by
    simp [Scan.separate, h.pos, hz, Char.utf8Size, Nat.add_assoc]
  exact ⟨by simp [h.pairs_eq], hpos, hpos⟩

end Reached

/-! ## Fragments side by side -/

/-- **Two fragments that correspond.** They stand at the same place of their texts, and what they
say is drawn from the pairs that stand there. -/
structure Corresponds (pairs : List (Char × Char)) (f g : Fragment) : Prop where
  span : g.span = f.span
  terminated : g.terminated = f.terminated
  recased : List.Forall₂ Recased f.sql g.sql
  drawn : ∃ part, slice? (pairs.map (·.1)) f.span = some (part.map (·.1)) ∧
    slice? (pairs.map (·.2)) f.span = some (part.map (·.2)) ∧ DrawnFrom part f.sql g.sql

namespace Twins

variable {pairs before read rest : List (Char × Char)} {s t : Scan}

theorem fragment (h : Twins read s t) (hs : Reached pairs before read rest s)
    (hpairs : AllRecased pairs) (terminated : Bool) :
    Corresponds pairs (s.fragment terminated) (t.fragment terminated) := by
  have hread : AllRecased read.reverse := fun z hz =>
    hpairs z (by simp [hs.pairs_eq, List.mem_reverse.mp hz])
  have hbefore : AllRecased before := fun z hz => hpairs z (by simp [hs.pairs_eq, hz])
  have hsql : DrawnFrom read.reverse (s.fragment terminated).sql (t.fragment terminated).sql :=
    h.kept.reverse.trim hread
  have hspan : (⟨s.start, s.pos⟩ : Span) = ⟨byteSize (before.map (·.1)),
      byteSize (before.map (·.1)) + byteSize (read.reverse.map (·.1))⟩ := by
    rw [hs.start, hs.pos]
  refine ⟨?_, rfl, hsql.recased hread, read.reverse, ?_, ?_, hsql⟩
  · rw [Scan.fragment, Scan.fragment, h.start, h.pos]
  · rw [Scan.fragment, hspan, hs.pairs_eq, List.map_append, List.map_append]
    exact slice?_append _ _ _
  · rw [Scan.fragment, hspan, ← hbefore.byteSize_eq, ← hread.byteSize_eq, hs.pairs_eq,
      List.map_append, List.map_append]
    exact slice?_append _ _ _

/-- **To the end of the texts.** The fragments correspond one by one. -/
theorem run (h : Twins read s t) (hs : Reached pairs before read rest s)
    (hpairs : AllRecased pairs) :
    List.Forall₂ (Corresponds pairs) (Scan.run s (rest.map (·.1))).1
        (Scan.run t (rest.map (·.2))).1 ∧
      (Scan.run t (rest.map (·.2))).2.atEnd = (Scan.run s (rest.map (·.1))).2.atEnd := by
  induction rest generalizing before read s t with
  | nil =>
    refine ⟨?_, h.atEnd_eq⟩
    rw [List.map_nil, List.map_nil, Scan.run, Scan.run, h.start, h.pos]
    split
    · exact .cons (h.fragment hs hpairs false) .nil
    · exact .nil
  | cons z rest ih =>
    have hrest : AllRecased (z :: rest) := fun y hy => hpairs y (by simp [hs.pairs_eq, hy])
    obtain ⟨hz, hrest⟩ := List.forall_mem_cons.mp hrest
    rw [List.map_cons, List.map_cons, Scan.run, Scan.run, hz.beq_eq ';' rfl, h.separates_eq]
    split
    -- Both readings separate here, or neither does.
    case isTrue hsep =>
      rw [Bool.and_eq_true, beq_iff_eq] at hsep
      obtain ⟨hfragments, hend⟩ := ih h.separate (hs.separate hsep.1)
      exact ⟨.cons (h.fragment hs hpairs true) hfragments, hend⟩
    case isFalse =>
      rw [List.head?_map, List.head?_map]
      exact ih (h.step hz fun y hy => hrest y (List.mem_of_head? hy)) (hs.step _)

end Twins

end Scan

/-! ## Statements side by side -/

namespace Statement

/-- **One statement in two texts** that differ in letter case. It stands at the same place and says
the same but for the case of letters, namely of those that differ there in the texts. -/
structure SameButCase (text text' : List Char) (s t : Statement) : Prop where
  span : t.span = s.span
  terminated : t.terminated = s.terminated
  recased : List.Forall₂ Recased s.sql.toList t.sql.toList
  drawn : ∃ part part', slice? text s.span = some part ∧ slice? text' s.span = some part' ∧
    DrawnFrom (part.zip part') s.sql.toList t.sql.toList

theorem sameButCase_of_corresponds {pairs : List (Char × Char)} {f g : Fragment}
    (h : Scan.Corresponds pairs f g) :
    SameButCase (pairs.map (·.1)) (pairs.map (·.2)) (ofFragment f) (ofFragment g) := by
  obtain ⟨part, hpart, hpart', hdrawn⟩ := h.drawn
  have hzip : (part.map Prod.fst).zip (part.map Prod.snd) = part := by
    rw [List.zip_map', List.map_id']
  refine ⟨h.span, h.terminated, ?_, part.map Prod.fst, part.map Prod.snd, hpart, hpart', ?_⟩
  · simpa only [ofFragment, String.toList_ofList] using h.recased
  · simpa only [ofFragment, String.toList_ofList, hzip] using hdrawn

/-- **Letter case decides nothing.** Texts that differ in the case of letters only are split into
statements that are the same but for it, and both are complete or neither is. -/
theorem split_recased {text text' : String} (h : List.Forall₂ Recased text.toList text'.toList) :
    List.Forall₂ (SameButCase text.toList text'.toList) (split text) (split text') ∧
      isComplete text' = isComplete text := by
  obtain ⟨pairs, htext, htext', hpairs⟩ : ∃ pairs : List (Char × Char),
      pairs.map (·.1) = text.toList ∧ pairs.map (·.2) = text'.toList ∧ AllRecased pairs := by
    obtain ⟨hlength, hzip⟩ := List.forall₂_iff_zip.mp h
    exact ⟨text.toList.zip text'.toList, List.map_fst_zip hlength.le, List.map_snd_zip hlength.ge,
      fun z hz => hzip hz⟩
  have htwins : Scan.Twins [] {} {} := ⟨rfl, trivial, rfl, rfl, rfl, .nil [], rfl, rfl⟩
  have hreached : Scan.Reached pairs [] [] pairs {} := ⟨rfl, rfl, rfl⟩
  obtain ⟨hfragments, hend⟩ := htwins.run hreached hpairs
  rw [htext, htext'] at hfragments hend
  have hempty : ∀ ⦃f g⦄, Scan.Corresponds pairs f g → (!f.sql.isEmpty ↔ !g.sql.isEmpty) := by
    intro f g hfg
    have hlength := hfg.recased.length_eq
    simp [← List.length_eq_zero_iff, hlength]
  have hkept := List.rel_filter (R := Scan.Corresponds pairs) hempty hfragments
  have hsame : ∀ f g, Scan.Corresponds pairs f g →
      SameButCase text.toList text'.toList (ofFragment f) (ofFragment g) := by
    rw [← htext, ← htext']
    exact fun f g => sameButCase_of_corresponds
  rw [split, split, List.forall₂_map_left_iff, List.forall₂_map_right_iff]
  exact ⟨hkept.imp hsame, hend⟩

/-- A trigger is kept in one piece in any letter case. -/
theorem split_recased_trigger :
    List.Forall₂ Recased "CREATE TRIGGER r BEGIN 'X'; END; -- y".toList
        "create Trigger R begin 'x'; eNd; -- Y".toList ∧
      List.Forall₂ (SameButCase "CREATE TRIGGER r BEGIN 'X'; END; -- y".toList
          "create Trigger R begin 'x'; eNd; -- Y".toList)
        (split "CREATE TRIGGER r BEGIN 'X'; END; -- y")
        (split "create Trigger R begin 'x'; eNd; -- Y") ∧
      isComplete "create Trigger R begin 'x'; eNd; -- Y" =
        isComplete "CREATE TRIGGER r BEGIN 'X'; END; -- y" ∧
      split "create Trigger R begin 'x'; eNd; -- Y" =
        [⟨⟨0, 31⟩, "create Trigger R begin 'x'; eNd", true⟩] := by
  have h : List.Forall₂ Recased "CREATE TRIGGER r BEGIN 'X'; END; -- y".toList
      "create Trigger R begin 'x'; eNd; -- Y".toList := by decide
  obtain ⟨hsplit, hcomplete⟩ := split_recased h
  exact ⟨h, hsplit, hcomplete, by decide⟩

end Statement

end SqlConsole
