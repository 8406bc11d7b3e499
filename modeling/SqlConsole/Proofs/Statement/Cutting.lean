import SqlConsole.Proofs.Statement.Pieces

/-!
# What is true of every piece

No lexeme of a piece separates when the piece is read from its start (`Unsplit`), nothing is left
open at the end of a piece that a separator ends, and only the last piece may be without one. These
are read off `pieces` by following it (`Piece.cut_of_mem`, `pairwise_pieces`). A piece stands in the
text where its fragment says (`map_slice?_place`).

Lexemes that do not separate when they are read from the start of a statement do not separate inside
a trigger body either (`Unsplit.of_covers`), as more bodies are open there.
-/

namespace SqlConsole

open Text Lexeme

/-! ## Reading without a separator -/

/-- No lexeme separates when they are read from this nesting. -/
def Unsplit (n : Nesting) : List Lexeme → Prop
  | [] => True
  | l :: ls => ¬ n.separates l ∧ Unsplit (n.after l) ls

theorem unsplit_append {n : Nesting} {a b : List Lexeme} :
    Unsplit n (a ++ b) ↔ Unsplit n a ∧ Unsplit (a.foldl Nesting.after n) b := by
  induction a generalizing n with
  | nil => simp [Unsplit]
  | cons l a ih => simp [Unsplit, ih, and_assoc]

/-- What has no `;` has no separator. -/
theorem unsplit_of_ne {ls : List Lexeme} (h : ∀ l ∈ ls, l ≠ .symbol ';') (n : Nesting) :
    Unsplit n ls := by
  induction ls generalizing n with
  | nil => trivial
  | cons l ls ih =>
    obtain ⟨hl, hls⟩ := List.forall_mem_cons.mp h
    exact ⟨fun hs => hl hs.1, ih hls _⟩

/-- Where no trigger can come any more, every `;` separates. -/
theorem Unsplit.ne_semicolon {ls : List Lexeme} (h : Unsplit ⟨.other, 0⟩ ls) :
    ∀ l ∈ ls, l ≠ .symbol ';' := by
  induction ls with
  | nil => simp
  | cons l ls ih =>
    have hafter : Nesting.after ⟨.other, 0⟩ l = ⟨.other, 0⟩ := by cases l <;> rfl
    rw [Unsplit, hafter] at h
    exact List.forall_mem_cons.mpr ⟨fun hl => h.1 ⟨hl, rfl⟩, ih h.2⟩

/-- A body is open in a trigger only. -/
def Nesting.Sound (n : Nesting) : Prop := n.depth ≠ 0 → n.opening = .trigger

theorem Nesting.Sound.read {n : Nesting} (h : n.Sound) (letters : List Char) :
    (n.read letters).Sound := by
  obtain ⟨opening, depth⟩ := n
  intro hd
  cases opening with
  | trigger => simp only [Nesting.read]; split <;> [rfl; split <;> rfl]
  | start | create | temporary | other => exact absurd (h hd) (by simp)

theorem Nesting.Sound.foldl_after {n : Nesting} (h : n.Sound) (ls : List Lexeme) :
    (ls.foldl Nesting.after n).Sound := by
  induction ls generalizing n with
  | nil => exact h
  | cons l ls ih =>
    refine ih ?_
    cases l with
    | word letters => exact h.read letters
    | _ => exact h

/-- A nesting inside a trigger that has at least the bodies of another open. -/
structure Nesting.Covers (m n : Nesting) : Prop where
  trigger : m.opening = .trigger
  sound : n.Sound
  depth : n.depth ≤ m.depth

theorem Nesting.Covers.read {m n : Nesting} (h : m.Covers n) (letters : List Char) :
    (m.read letters).Covers (n.read letters) := by
  obtain ⟨mo, md⟩ := m
  obtain ⟨no, nd⟩ := n
  obtain ⟨rfl, hs, hd⟩ := h
  have htrigger : (Nesting.read ⟨.trigger, md⟩ letters).opening = .trigger := by
    simp only [Nesting.read]
    split <;> [rfl; split <;> rfl]
  refine ⟨htrigger, hs.read letters, ?_⟩
  -- Inside a trigger both count alike. Elsewhere the smaller one counts nothing and stays at 0.
  by_cases hn : no = .trigger
  · subst hn
    simp only [Nesting.read]
    split
    · exact Nat.succ_le_succ hd
    · split
      · exact Nat.sub_le_sub_right hd 1
      · exact hd
  · have hzero : (Nesting.read ⟨no, nd⟩ letters).depth = 0 := by
      have hnd : nd = 0 := by
        by_contra hne
        exact hn (hs hne)
      cases no <;> simp_all [Nesting.read]
    rw [hzero]
    exact Nat.zero_le _

theorem Unsplit.of_covers {m n : Nesting} {ls : List Lexeme} (h : Unsplit n ls)
    (hc : m.Covers n) : Unsplit m ls := by
  induction ls generalizing m n with
  | nil => trivial
  | cons l ls ih =>
    refine ⟨fun hs => h.1 ⟨hs.1, ?_⟩, ih h.2 ?_⟩
    · have hle := hc.depth
      have hzero := hs.2
      omega
    · cases l with
      | word letters => exact hc.read letters
      | _ => exact hc

/-- Behind a statement that leaves a body open no statement is cut either. -/
theorem Unsplit.foldl_after {ls : List Lexeme} (h : Unsplit {} ls) {piece : List Lexeme}
    (hp : openBodies (words piece) ≠ 0) : Unsplit (piece.foldl Nesting.after {}) ls := by
  have hsound : Nesting.Sound {} := fun h => absurd rfl h
  rw [← depth_foldl_after] at hp
  exact h.of_covers ⟨hsound.foldl_after piece hp, hsound, Nat.zero_le _⟩

/-! ## Pieces -/

/-- A piece goes on as long as no lexeme separates. -/
theorem pieces_append {piece a b : List Lexeme}
    (h : Unsplit (piece.foldl Nesting.after {}) a) :
    pieces piece (a ++ b) = pieces (piece ++ a) b := by
  induction a generalizing piece with
  | nil => simp
  | cons l a ih =>
    have hsep : ¬ (l = .symbol ';' ∧ openBodies (words piece) = 0) := by
      rw [← depth_foldl_after]
      exact h.1
    have hafter : Unsplit ((piece ++ [l]).foldl Nesting.after {}) a := by simpa using h.2
    rw [List.cons_append, pieces, if_neg hsep, ih hafter, List.append_assoc, List.singleton_append]

namespace Piece

/-- The lexemes of a piece and its separator. -/
def whole (p : Piece) : List Lexeme :=
  p.lexemes ++ if p.terminated then [.symbol ';'] else []

/-- The pieces are all of the text. -/
theorem flatMap_whole_pieces (piece ls : List Lexeme) :
    (pieces piece ls).flatMap whole = piece ++ ls := by
  induction ls generalizing piece with
  | nil =>
    by_cases hp : piece = []
    · simp [pieces, hp]
    · simp [pieces, hp, whole]
  | cons l ls ih =>
    rw [pieces]
    split
    case isTrue h =>
      obtain ⟨rfl, -⟩ := h
      simp [ih, whole]
    case isFalse => simp [ih]

/-- What a piece is. -/
structure Cut (p : Piece) : Prop where
  lexed : Lexed p.lexemes
  unsplit : Unsplit {} p.lexemes
  /-- Nothing is open where a separator is. -/
  closed : p.terminated = true → ∀ l ∈ p.lexemes, l.isComment = false → l.closed = true

theorem cut_of_mem {piece ls : List Lexeme} (hl : Lexed (piece ++ ls)) (hu : Unsplit {} piece) :
    ∀ p ∈ pieces piece ls, p.Cut := by
  induction ls generalizing piece with
  | nil =>
    intro p hp
    by_cases hne : piece = []
    · simp [pieces, hne] at hp
    · obtain rfl : p = ⟨piece, false⟩ := by simpa [pieces, hne] using hp
      exact ⟨hl.left, hu, by simp⟩
  | cons l ls ih =>
    rw [pieces]
    split
    case isTrue h =>
      refine List.forall_mem_cons.mpr ⟨⟨hl.left, hu, fun _ => ?_⟩, ih hl.right.2 trivial⟩
      exact hl.closed_of_append (by simp)
    case isFalse h =>
      refine ih (by simpa using hl) (unsplit_append.mpr ⟨hu, ?_, trivial⟩)
      rwa [Nesting.separates, depth_foldl_after]

/-- Whatever another piece follows is ended by a separator. -/
theorem pairwise_pieces (piece ls : List Lexeme) :
    (pieces piece ls).Pairwise fun p _ => p.terminated = true := by
  induction ls generalizing piece with
  | nil => by_cases hp : piece = [] <;> simp [pieces, hp]
  | cons l ls ih =>
    rw [pieces]
    split
    case isTrue => exact List.pairwise_cons.mpr ⟨fun _ _ => rfl, ih []⟩
    case isFalse => exact ih _

end Piece

/-! ## Places -/

theorem slice?_append (before cs rest : List Char) :
    slice? (before ++ (cs ++ rest)) ⟨byteSize before, byteSize before + byteSize cs⟩ = some cs := by
  have hsize : byteSize before + byteSize cs - byteSize before = byteSize cs := by omega
  simp [slice?, cut?_byteSize, hsize]

/-- **A fragment stands where its span says.** -/
theorem map_slice?_place {ps : List Piece} (h : ps.Pairwise fun p _ => p.terminated = true)
    (before : List Char) :
    (place (byteSize before) ps).map
        (fun f => slice? (before ++ source (ps.flatMap Piece.whole)) f.span) =
      ps.map fun p => some (source p.lexemes) := by
  induction ps generalizing before with
  | nil => rfl
  | cons p ps ih =>
    obtain ⟨hp, hps⟩ := List.pairwise_cons.mp h
    have hhead : slice? (before ++ source ((p :: ps).flatMap Piece.whole))
        ⟨byteSize before, byteSize before + byteSize (source p.lexemes)⟩ =
        some (source p.lexemes) := by
      rw [List.flatMap_cons, Piece.whole, source_append, source_append, List.append_assoc]
      exact slice?_append _ _ _
    rw [place, List.map_cons, List.map_cons, hhead]
    refine congrArg _ ?_
    cases ps with
    | nil => rfl
    | cons q qs =>
      have hterm : p.terminated = true := hp q List.mem_cons_self
      have hsource : before ++ source ((p :: q :: qs).flatMap Piece.whole) =
          (before ++ source p.lexemes ++ [';']) ++ source ((q :: qs).flatMap Piece.whole) := by
        simp [Piece.whole, hterm, text]
      have hstart : byteSize before + byteSize (source p.lexemes) + 1 =
          byteSize (before ++ source p.lexemes ++ [';']) := by
        simp [Char.utf8Size, Nat.add_assoc]
      rw [hsource, hstart]
      exact ih hps _

end SqlConsole
