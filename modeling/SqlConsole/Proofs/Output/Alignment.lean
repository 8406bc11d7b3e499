import Mathlib.Data.List.Forall2
import Mathlib.Data.List.MinMax
import SqlConsole.Proofs.Output.Drawing
import SqlConsole.Proofs.Statement.Trimming

/-!
# Columns stand below each other

The widths of a table are gathered line by line (`widen`), and lines are aligned by them later on.
That the two agree is said here of every column by itself: its width is that of its widest cell
(`getD_widths`), there is a width for every cell, and none is wider than its column (`fits_widths`).
So what is taken from a width is never more than the width, every cell begins where the columns
before it end (`Aligned`), and that is the same place in every line.

Lines lose the blanks at their end, which is where cells of blanks alone may be lost, and nothing
else is (`Shows`).
-/

namespace SqlConsole.Table

/-! ## Widths -/

/-- The number of characters of a cell of a line; none if the line has no such cell. -/
def cellLength (j : Nat) (cs : List (List Char)) : Nat := (cs[j]?.getD []).length

/-- The width of a column: the greatest number of characters of a cell in it. -/
def width (lines : List (List (List Char))) (j : Nat) : Nat :=
  (lines.map (cellLength j)).foldr max 0

/-- Where a column begins that has columns of these widths before it. -/
def offset (w : Nat → Nat) (j : Nat) : Nat := ((List.range j).map fun i => w i + 5).sum

theorem length_widen (ws : List Nat) (cs : List (List Char)) :
    (widen ws cs).length = max ws.length cs.length := by
  fun_induction widen ws cs with
  | case1 ws => exact (Nat.max_zero _).symm
  | case2 cell cells ih => simp only [List.length_cons, ih, List.length_nil]; omega
  | case3 w ws cell cells ih => simp only [List.length_cons, ih]; omega

theorem getD_widen (ws : List Nat) (cs : List (List Char)) (j : Nat) :
    (widen ws cs).getD j 0 = max (ws.getD j 0) (cellLength j cs) := by
  fun_induction widen ws cs generalizing j with
  | case1 ws => exact (Nat.max_zero _).symm
  | case2 cell cells ih =>
    cases j with
    | zero => exact (Nat.zero_max _).symm
    | succ j => exact ih j
  | case3 w ws cell cells ih =>
    cases j with
    | zero => rfl
    | succ j => exact ih j

theorem getD_foldl_widen (lines : List (List (List Char))) (ws : List Nat) (j : Nat) :
    (lines.foldl widen ws).getD j 0 = max (ws.getD j 0) (width lines j) := by
  induction lines generalizing ws with
  | nil => exact (Nat.max_zero _).symm
  | cons cs lines ih =>
    rw [List.foldl_cons, ih, getD_widen, Nat.max_assoc]
    rfl

/-- **The width of a column** is that of its widest cell. -/
theorem getD_widths (lines : List (List (List Char))) (j : Nat) :
    (widths lines).getD j 0 = width lines j :=
  (getD_foldl_widen lines [] j).trans (Nat.zero_max _)

/-- There are as many widths as the longest line has cells. -/
theorem length_foldl_widen (lines : List (List (List Char))) (ws : List Nat) :
    (lines.foldl widen ws).length = max ws.length ((lines.map List.length).foldr max 0) := by
  induction lines generalizing ws with
  | nil => exact (Nat.max_zero _).symm
  | cons cs lines ih =>
    rw [List.foldl_cons, ih, length_widen, Nat.max_assoc]
    rfl

/-- **Every cell has a width**, and is not wider. -/
theorem fits_widths {lines : List (List (List Char))} {cs : List (List Char)}
    (h : cs ∈ lines) {j : Nat} {cell : List Char} (hcell : cs[j]? = some cell) :
    (widths lines)[j]? = some (width lines j) ∧ cell.length ≤ width lines j := by
  obtain ⟨hj, -⟩ := List.getElem?_eq_some_iff.mp hcell
  have hlength : cs.length ≤ (lines.map List.length).foldr max 0 :=
    List.le_max_of_le (List.mem_map_of_mem h) (Nat.le_refl _)
  have hwidth : cellLength j cs ≤ width lines j :=
    List.le_max_of_le (List.mem_map_of_mem h) (Nat.le_refl _)
  have hbound : j < (widths lines).length := by
    rw [widths, length_foldl_widen]
    exact Nat.lt_of_lt_of_le hj (Nat.le_trans hlength (Nat.le_max_right _ _))
  constructor
  · rw [← getD_widths, List.getD_eq_getElem?_getD, List.getElem?_eq_getElem hbound]
    rfl
  · rwa [cellLength, hcell] at hwidth

/-! ## Lines -/

/-- The cells of a line at their columns, with spaces up to the width of the column and between
columns. -/
structure Aligned (w : Nat → Nat) (cs : List (List Char)) (full : List Char) : Prop where
  empty : cs = [] → full = []
  cells : ∀ j cell, cs[j]? = some cell → ∃ front back,
    full = front ++ (cell ++ List.replicate (w j - cell.length) ' ') ++ back ∧
      front.length = offset w j ∧ (j + 1 < cs.length → List.replicate 5 ' ' <+: back) ∧
      (j + 1 = cs.length → back = [])

theorem offset_succ (w : Nat → Nat) (j : Nat) :
    offset w (j + 1) = w 0 + 5 + offset (fun i => w (i + 1)) j := by
  rw [offset, List.range_succ_eq_map, List.map_cons, List.map_map, List.sum_cons]
  rfl

theorem length_pad {width : Nat} {cell : List Char} (h : cell.length ≤ width) :
    (pad width cell).length = width := by
  rw [pad, List.length_append, List.length_replicate]
  omega

/-- One more line of cells, with a column before all others. -/
theorem Aligned.cons {w : Nat → Nat} {cell : List Char} {cells : List (List Char)}
    {full : List Char} (h : Aligned (fun i => w (i + 1)) cells full) (hcells : cells ≠ [])
    (hfits : cell.length ≤ w 0) : Aligned w (cell :: cells) (pad (w 0) cell ++ gap ++ full) := by
  refine ⟨nofun, ?_⟩
  rintro (_ | j) c hc
  · obtain rfl : cell = c := Option.some.inj hc
    refine ⟨[], gap ++ full, List.append_assoc _ _ _, rfl, fun _ => List.prefix_append gap full,
      fun hlast => ?_⟩
    exact absurd (List.length_eq_zero_iff.mp (Nat.succ.inj hlast).symm) hcells
  · obtain ⟨front, back, hfull, hfront, hmore, hlast⟩ := h.cells j c hc
    refine ⟨pad (w 0) cell ++ gap ++ front, back, ?_, ?_,
      fun hj => hmore (Nat.lt_of_succ_lt_succ hj), fun hj => hlast (Nat.succ.inj hj)⟩
    · rw [hfull]
      simp only [List.append_assoc]
    · rw [List.length_append, List.length_append, length_pad hfits, hfront, offset_succ]
      rfl

/-- **Cells begin at their columns** if no cell is wider than its column. -/
theorem aligned_align {w : Nat → Nat} {ws : List Nat} {cs : List (List Char)}
    (h : ∀ j cell, cs[j]? = some cell → ws[j]? = some (w j) ∧ cell.length ≤ w j) :
    Aligned w cs (align ws cs) := by
  induction cs generalizing w ws with
  | nil =>
    have hempty : align ws [] = [] := by cases ws <;> rfl
    exact ⟨fun _ => hempty, nofun⟩
  | cons cell cells ih =>
    obtain ⟨hw, hfits⟩ := h 0 cell rfl
    obtain ⟨ws, rfl⟩ : ∃ rest, ws = w 0 :: rest := by
      cases ws with
      | nil => cases hw
      | cons first ws => exact ⟨ws, congrArg (· :: ws) (Option.some.inj hw)⟩
    have hmore := @ih (fun i => w (i + 1)) ws fun j c hc => h (j + 1) c hc
    cases cells with
    | nil =>
      refine ⟨nofun, ?_⟩
      rintro (_ | j) c hc
      · obtain rfl : cell = c := Option.some.inj hc
        exact ⟨[], [], (List.append_nil _).symm, rfl, fun hj => absurd hj (Nat.lt_irrefl 1),
          fun _ => rfl⟩
      · cases hc
    | cons next cells => exact hmore.cons (List.cons_ne_nil next cells) hfits

/-! ## Records -/

theorem exists_append_trimRight (cs : List Char) :
    ∃ blanks, cs = Text.trimRight cs ++ blanks ∧ ∀ c ∈ blanks, Text.isBlank c = true := by
  refine ⟨(cs.reverse.takeWhile Text.isBlank).reverse, ?_, fun c hc => ?_⟩
  · rw [Text.trimRight, ← List.reverse_append, List.takeWhile_append_dropWhile,
      List.reverse_reverse]
  · exact List.mem_takeWhile_imp (List.mem_reverse.mp hc)

theorem isBlank_getLast?_trimRight (cs : List Char) :
    ∀ c ∈ (Text.trimRight cs).getLast?, Text.isBlank c = false := by
  intro c hc
  rw [Text.trimRight, List.getLast?_reverse] at hc
  have hfirst := List.head?_dropWhile_not Text.isBlank cs.reverse
  rwa [Option.mem_def.mp hc] at hfirst

/-- A record of a table shows a line. -/
structure Shows (lines : List (List (List Char))) (cs : List (List Char))
    (record : String) : Prop where
  /-- Every cell has a width, from which its length can be taken. -/
  fits : ∀ j cell, cs[j]? = some cell →
    (widths lines)[j]? = some (width lines j) ∧ cell.length ≤ width lines j
  /-- The cells stand at their columns, and only blanks at the end of the line are lost. -/
  aligned : ∃ blanks, Aligned (width lines) cs (record.toList ++ blanks) ∧
    ∀ c ∈ blanks, Text.isBlank c = true
  /-- There is no blank at the end. -/
  tidy : ∀ c ∈ record.toList.getLast?, Text.isBlank c = false

theorem shows_lines (table : List (List (List Char))) :
    List.Forall₂ (Shows table) table (lines table) := by
  rw [lines, List.forall₂_map_right_iff, List.forall₂_same]
  intro cs hcs
  have hfits : ∀ j cell, cs[j]? = some cell → _ := fun j cell hcell => fits_widths hcs hcell
  obtain ⟨blanks, hfull, hblanks⟩ := exists_append_trimRight (align (widths table) cs)
  refine ⟨hfits, ⟨blanks, ?_, hblanks⟩, ?_⟩
  · rw [String.toList_ofList, ← hfull]
    exact aligned_align hfits
  · rw [String.toList_ofList]
    exact isBlank_getLast?_trimRight _

/-! ## What the printer writes -/

/-- The cells of a row as they are shown. -/
def texts (row : Row) : List (List Char) := (row.write .table).map String.toList

/-- The cells of all lines, the header in capitals first. -/
def cells (header : Bool) (columns : List String) (rows : List Row) : List (List (List Char)) :=
  (if header then [columns.map fun name => (Text.upper name).toList] else []) ++ rows.map texts

theorem allBytes_chunks (header : Bool) (columns : List String) (rows : List Row) :
    Chunk.allBytes ((printer header).chunks columns rows none) =
      Text.Utf8.encode (Plan.unlines (lines (cells header columns rows))) := by
  have hbody := Printer.body_collect (p := printer header) (f := texts) (fun _ _ => rfl)
    ((printer header).start columns).1 rows
  rw [← Plan.allBytes_lines]
  simp only [Printer.chunks, hbody]
  cases header <;> rfl

/-- **The columns of a table stand below each other.** -/
theorem printer_aligns (header : Bool) (columns : List String) (rows : List Row) :
    ∃ records,
      (printer header).Writes columns rows (Text.Utf8.encode (Plan.unlines records)) ∧
      List.Forall₂ (Shows (cells header columns rows)) (cells header columns rows) records := by
  refine ⟨lines (cells header columns rows), ?_, shows_lines _⟩
  rw [← allBytes_chunks]
  exact (printer header).writes_chunks columns rows

/-- A row without cells, one with more cells than columns, and a cell that ends in blanks. -/
def ragged : List Row :=
  [[.text "a", .text "b\u3000 "], [.int 100, .null, .text "c"], []]

/-- A name may have more characters in capitals than it has otherwise. -/
theorem printer_aligns_ragged :
    let columns := ["\u00DF", "id"]
    let s := (Batch.mk [] .idle false).fetch false (.finite ragged) ⟨[], none⟩
      { backend := .ofScripts [] }
    let written := ((printer true).drain false columns s.1 s.2 ⟨none, []⟩).sink.written
    (∃ last, s.1.rows false 4 s.2 = (ragged, some .done, last)) ∧
      (∃ records, written = Text.Utf8.encode (Plan.unlines records) ∧
        List.Forall₂ (Shows (cells true columns ragged)) (cells true columns ragged) records) ∧
      written =
        Text.Utf8.encode "SS      ID\na       b\n100     NULL     c\n\n".toList := by
  intro columns s written
  have hreads := Batch.readsOut_fetch (b := ⟨[], .idle, false⟩) rfl ragged ⟨[], none⟩
    { backend := .ofScripts [] }
  have hend := hreads.rows_eq (n := 4) (by decide)
  obtain ⟨records, hwrites, hshows⟩ := printer_aligns true columns ragged
  refine ⟨⟨_, hend⟩, ⟨records, ?_, hshows⟩, by decide +kernel⟩
  show ((printer true).drain false columns s.1 s.2 ⟨none, []⟩).sink.written = _
  rw [hwrites _ _ _ _ _ _ [] hend, List.nil_append]

end SqlConsole.Table
