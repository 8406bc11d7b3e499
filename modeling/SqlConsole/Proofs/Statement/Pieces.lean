import SqlConsole.Proofs.Statement.Reading

/-!
# Statements as pieces of a list of lexemes

What the fragments of a text are can be said without a scanner, in two steps. First the text is cut
into its lexemes. Then the list of lexemes is cut at each `;` that separates (`pieces`), where a `;`
separates if the words of its piece before it have left no trigger body open (`openBodies`). The
fragments are these pieces with their places in the text (`place`).

That `Scan.fragments` gives exactly these is `fragments_eq_place_pieces`. The invariant behind it is
`Scan.Behind`: a reading that stands behind the lexemes of a piece holds of them what their fragment
needs.
-/

namespace SqlConsole

open Text Lexeme

/-! ## Trigger bodies -/

/-- The words behind `TRIGGER`, if that is the first word. -/
def wordsAfterTrigger : List (List Char) → List (List Char)
  | [] => []
  | w :: ws => if Nesting.spells w "TRIGGER" then ws else []

/-- The words behind `CREATE [TEMP | TEMPORARY] TRIGGER`, if a statement begins so. -/
def triggerWords : List (List Char) → List (List Char)
  | create :: w :: ws =>
    if Nesting.spells create "CREATE" then
      if Nesting.spells w "TEMP" || Nesting.spells w "TEMPORARY" then wordsAfterTrigger ws
      else wordsAfterTrigger (w :: ws)
    else []
  | _ => []

/-- The number of open bodies after one more word of a trigger. -/
def nest (depth : Nat) (word : List Char) : Nat :=
  if Nesting.spells word "BEGIN" || Nesting.spells word "CASE" then depth + 1
  else if Nesting.spells word "END" then depth - 1
  else depth

/-- The number of trigger bodies that the words of a statement have left open. -/
def openBodies (words : List (List Char)) : Nat := (triggerWords words).foldl nest 0

theorem foldl_read_other (depth : Nat) (ws : List (List Char)) :
    ws.foldl Nesting.read ⟨.other, depth⟩ = ⟨.other, depth⟩ := by
  induction ws with
  | nil => rfl
  | cons w ws ih => exact ih

theorem foldl_read_trigger (depth : Nat) (ws : List (List Char)) :
    ws.foldl Nesting.read ⟨.trigger, depth⟩ = ⟨.trigger, ws.foldl nest depth⟩ := by
  induction ws generalizing depth with
  | nil => rfl
  | cons w ws ih =>
    have hread : Nesting.read ⟨.trigger, depth⟩ w = ⟨.trigger, nest depth w⟩ := by
      simp only [Nesting.read, nest]
      split
      · rfl
      · split <;> rfl
    rw [List.foldl_cons, List.foldl_cons, hread, ih]

theorem depth_foldl_read_temporary (ws : List (List Char)) :
    (ws.foldl Nesting.read ⟨.temporary, 0⟩).depth = (wordsAfterTrigger ws).foldl nest 0 := by
  cases ws with
  | nil => rfl
  | cons w ws =>
    cases h : Nesting.spells w "TRIGGER" with
    | true => simp [Nesting.read, wordsAfterTrigger, h, foldl_read_trigger]
    | false => simp [Nesting.read, wordsAfterTrigger, h, foldl_read_other]

/-- **Following the words of a statement counts the bodies that they leave open.** -/
theorem depth_foldl_read (ws : List (List Char)) :
    (ws.foldl Nesting.read {}).depth = openBodies ws := by
  match ws with
  | [] => rfl
  | [create] => cases h : Nesting.spells create "CREATE" <;> simp [Nesting.read, h] <;> rfl
  | create :: w :: ws =>
    cases hc : Nesting.spells create "CREATE" with
    | false => simp [Nesting.read, hc, foldl_read_other, openBodies, triggerWords]
    | true =>
      cases ht : Nesting.spells w "TEMP" || Nesting.spells w "TEMPORARY" with
      | true =>
        simp only [openBodies, triggerWords, hc, ht, if_true, ← depth_foldl_read_temporary]
        simp [Nesting.read, hc, ht]
      | false =>
        cases h : Nesting.spells w "TRIGGER" with
        | true =>
          simp [openBodies, triggerWords, wordsAfterTrigger, Nesting.read, hc, ht, h,
            foldl_read_trigger]
        | false =>
          simp [openBodies, triggerWords, wordsAfterTrigger, Nesting.read, hc, ht, h,
            foldl_read_other]

/-! ## Pieces -/

namespace Lexeme

/-- The letters of a word. -/
def letters? : Lexeme → Option (List Char)
  | word letters => some letters
  | quoted _ _ _ | bracketed _ _ | lineComment _ | blockComment _ _ | symbol _ => none

/-- The words among lexemes. -/
def words (ls : List Lexeme) : List (List Char) := ls.filterMap letters?

end Lexeme

/-- Only words count for the nesting. -/
theorem foldl_after (n : Nesting) (ls : List Lexeme) :
    ls.foldl Nesting.after n = (words ls).foldl Nesting.read n := by
  induction ls generalizing n with
  | nil => rfl
  | cons l ls ih => cases l <;> exact ih _

/-- The depth behind the lexemes of a statement. -/
theorem depth_foldl_after (ls : List Lexeme) :
    (ls.foldl Nesting.after {}).depth = openBodies (words ls) := by
  rw [foldl_after, depth_foldl_read]

/-- The lexemes between two separators. -/
structure Piece where
  lexemes : List Lexeme
  /-- Whether a separator ends it. -/
  terminated : Bool
  deriving DecidableEq

/-- The pieces of a list of lexemes; `piece` holds those since the last separator. What is behind
the last separator is a piece if there is anything. -/
def pieces (piece : List Lexeme) : List Lexeme → List Piece
  | [] => if piece = [] then [] else [⟨piece, false⟩]
  | l :: ls =>
    if l = .symbol ';' ∧ openBodies (words piece) = 0 then ⟨piece, true⟩ :: pieces [] ls
    else pieces (piece ++ [l]) ls

/-- The statement text of a piece: comments count as spaces, and the ends are trimmed. -/
def Piece.sql (p : Piece) : List Char := trim (source (p.lexemes.map bare))

/-- The fragments that pieces make, the first at the byte `start` and each of the others behind the
separator of the one before. -/
def place (start : Nat) : List Piece → List Fragment
  | [] => []
  | p :: ps =>
    let stop := start + byteSize (source p.lexemes)
    ⟨⟨start, stop⟩, p.sql, p.terminated⟩ :: place (stop + 1) ps

namespace Scan

/-- A reading stands behind the lexemes of a piece. -/
structure Behind (s : Scan) (piece : List Lexeme) : Prop where
  nesting : s.nesting = piece.foldl Nesting.after {}
  kept : s.kept.reverse = source (piece.map bare)
  pos : s.pos = s.start + byteSize (source piece)

variable {s : Scan} {piece : List Lexeme}

theorem Behind.depth (h : s.Behind piece) : s.nesting.depth = openBodies (words piece) := by
  rw [h.nesting, depth_foldl_after]

theorem Behind.fragment (h : s.Behind piece) (terminated : Bool) :
    s.fragment terminated =
      ⟨⟨s.start, s.start + byteSize (source piece)⟩, (Piece.mk piece terminated).sql,
        terminated⟩ := by
  rw [Scan.fragment, h.pos, h.kept]; rfl

theorem Behind.separate (s : Scan) : s.separate.Behind [] :=
  ⟨rfl, rfl, rfl⟩

theorem Behind.pass (h : s.Behind piece) (l : Lexeme) : (s.pass l).Behind (piece ++ [l]) := by
  refine ⟨?_, ?_, ?_⟩
  · simp [Scan.pass, h.nesting]
  · simp [Scan.pass, h.kept]
  · simp [Scan.pass, h.pos, Nat.add_assoc]

theorem byteSize_pos {cs : List Char} (h : cs ≠ []) : 0 < byteSize cs := by
  obtain ⟨c, tail, rfl⟩ := List.exists_cons_of_ne_nil h
  have := c.utf8Size_pos
  simp only [byteSize_cons]
  omega

theorem Behind.start_lt_pos_iff (h : s.Behind piece) (hp : Lexed piece) :
    s.start < s.pos ↔ piece ≠ [] := by
  rw [h.pos]
  constructor
  · rintro hlt rfl
    simp at hlt
  · intro hne
    have := byteSize_pos (source_ne_nil hp hne)
    omega

/-- A reading behind a part of a piece goes on to the fragments of the pieces. -/
theorem runLexemes_eq_place (h : s.Behind piece) {ls : List Lexeme} (hl : Lexed (piece ++ ls)) :
    (runLexemes s ls).1 = place s.start (pieces piece ls) := by
  induction ls generalizing s piece with
  | nil =>
    rw [List.append_nil] at hl
    by_cases hne : piece = []
    · have hpos : ¬ s.start < s.pos := by simp [h.start_lt_pos_iff hl, hne]
      simp [runLexemes, pieces, hpos, hne, place]
    · have hpos : s.start < s.pos := (h.start_lt_pos_iff hl).mpr hne
      simp [runLexemes, pieces, hpos, hne, place, h.fragment]
  | cons l ls ih =>
    rw [runLexemes, pieces]
    by_cases hsep : s.nesting.separates l
    · have hsep' : l = .symbol ';' ∧ openBodies (words piece) = 0 := ⟨hsep.1, h.depth ▸ hsep.2⟩
      have hstart : s.separate.start = s.start + byteSize (source piece) + 1 := by
        rw [← h.pos]; rfl
      rw [if_pos hsep, if_pos hsep', place, ← hstart, ← ih (Behind.separate s) hl.right.2,
        h.fragment]
    · have hsep' : ¬ (l = .symbol ';' ∧ openBodies (words piece) = 0) :=
        fun hs => hsep ⟨hs.1, h.depth ▸ hs.2⟩
      rw [if_neg hsep, if_neg hsep', ih (h.pass l) (by simpa using hl)]
      rfl

/-- A reading that begins a statement goes on to the pieces of the text. -/
theorem run_eq_place {s : Scan} (h : s.Behind []) (hword : s.word = []) (hm : s.mode = .plain)
    (cs : List Char) : (run s cs).1 = place s.start (pieces [] (lexemes cs)) := by
  rw [run_eq_runLexemes hword (Or.inl hm), runLexemes_eq_place h (lexed_lexemes cs)]

end Scan

/-- **The fragments of a text are the pieces of its lexemes, each at its place.** -/
theorem fragments_eq_place_pieces (text : List Char) :
    Scan.fragments text = place 0 (pieces [] (lexemes text)) := by
  have hbehind : ({} : Scan).Behind [] := ⟨rfl, rfl, rfl⟩
  exact Scan.run_eq_place hbehind rfl rfl text

end SqlConsole
