import SqlConsole.Proofs.Output.Contribution
import SqlConsole.Proofs.Text.Utf8

/-!
# Reading comma-separated values back

A reader that knows nothing of the printer takes the bytes one by one (`scan`). Where it stands
decides what a byte means (`step`): outside of quotes a comma ends the field and a line break the
record, between quotes every byte belongs to the field but a quote, of which two stand for one. A
line without a byte is no record, which is why a record that takes no bytes has to be written as a
pair of quotes. What is neither is refused: a quote in a field that did not begin with one, anything
but a separator behind the closing quote, quotes that are not closed.

The buffers of the printer part its output at other places than the records, but put together they
are the lines of the records (`allBytes_chunks`). A line is read field by field, each up to the
separator behind it (`scan_field`, `scan_fields`), and the lines one by one (`scan_lines`).
-/

namespace SqlConsole.Csv

/-! ## A reader -/

/-- Where a reader stands. -/
inductive Place where
  /-- At the beginning of a line. -/
  | line
  /-- Behind a comma. -/
  | field
  /-- In a field without quotes. -/
  | bare
  /-- Between quotes. -/
  | quoted
  /-- Behind a quote between quotes, which closes them or is the first of two. -/
  | closing
  deriving DecidableEq, Repr

/-- What a byte does to the records that are read from it on. -/
inductive Deed where
  | skip
  | push (b : UInt8)
  | endField
  | endRecord
  deriving DecidableEq, Repr

def comma : UInt8 := 44

/-- Lines are ended by a line feed, a carriage return, or both. -/
def isLineEnd (b : UInt8) : Bool := b == 10 || b == 13

/-- What a byte means that is not between quotes. -/
def separate? (b : UInt8) : Option (Deed × Place) :=
  if b == comma then some (.endField, .field)
  else if isLineEnd b then some (.endRecord, .line)
  else none

/-- What a byte means, and where it leads. -/
def step : Place → UInt8 → Option (Deed × Place)
  | .line, b =>
    if isLineEnd b then some (.skip, .line)
    else if b == quote then some (.skip, .quoted)
    else (separate? b).or (some (.push b, .bare))
  | .field, b =>
    if b == quote then some (.skip, .quoted)
    else (separate? b).or (some (.push b, .bare))
  | .bare, b =>
    if b == quote then none
    else (separate? b).or (some (.push b, .bare))
  | .quoted, b => if b == quote then some (.skip, .closing) else some (.push b, .quoted)
  | .closing, b => if b == quote then some (.push b, .quoted) else separate? b

/-- Puts bytes before those of the current field, the first one. -/
def prepend (bytes : List UInt8) : List (List (List UInt8)) → List (List (List UInt8))
  | (f :: fs) :: rs => ((bytes ++ f) :: fs) :: rs
  | rs => rs

/-- The records with a byte, from those that are read behind it. -/
def Deed.apply : Deed → List (List (List UInt8)) → List (List (List UInt8))
  | skip, rs => rs
  | push b, rs => prepend [b] rs
  | endField, fs :: rs => ([] :: fs) :: rs
  | endField, [] => []
  | endRecord, rs => [[]] :: rs

/-- The records from a place on. In the middle of a record the first one is the rest of it. -/
def scan : Place → List UInt8 → Option (List (List (List UInt8)))
  | .line, [] => some []
  | .quoted, [] => none
  | .field, [] | .bare, [] | .closing, [] => some [[[]]]
  | place, b :: bs => do
    let (deed, next) ← step place b
    return deed.apply (← scan next bs)

/-- The records of a text in bytes. -/
def read? (bytes : List UInt8) : Option (List (List String)) :=
  (scan .line bytes).map (·.map (·.map Text.Utf8.decodeLossy))

/-! ## Fields -/

theorem prepend_append (a b : List UInt8) (rs : List (List (List UInt8))) :
    prepend (a ++ b) rs = prepend a (prepend b rs) := by
  match rs with
  | [] | [] :: _ => rfl
  | (f :: fs) :: rs => simp only [prepend, List.append_assoc]

theorem prepend_nil (rs : List (List (List UInt8))) : prepend [] rs = rs := by
  match rs with
  | [] | [] :: _ | (_ :: _) :: _ => rfl

variable {bytes rest : List UInt8} {b : UInt8}

theorem scan_cons {place next : Place} {deed : Deed} (h : step place b = some (deed, next)) :
    scan place (b :: rest) = (scan next rest).map deed.apply := by
  cases place <;> simp only [scan, h, Option.bind_eq_bind, Option.bind_some, Option.map_eq_bind,
    Function.comp_def, Option.pure_def]

theorem scan_skip {place next : Place} (h : step place b = some (.skip, next)) :
    scan place (b :: rest) = scan next rest := (scan_cons h).trans Option.map_id'

/-- A separator ends a field wherever it is not between quotes. -/
theorem scan_separator (h : (separate? b).isSome) (rest : List UInt8) :
    scan .field (b :: rest) = scan .bare (b :: rest) ∧
      scan .closing (b :: rest) = scan .bare (b :: rest) := by
  obtain ⟨⟨deed, next⟩, hb⟩ := Option.isSome_iff_exists.mp h
  have hquote : (b == quote) = false := by
    rw [beq_eq_false_iff_ne]
    rintro rfl
    cases hb
  simp only [scan, step, hquote, hb, Option.some_or, Bool.false_eq_true, if_false, and_self]

/-- A byte that needs no quotes belongs to the field. -/
theorem step_push (h : needsQuotes b = false) :
    step .field b = some (.push b, .bare) ∧ step .bare b = some (.push b, .bare) := by
  simp only [needsQuotes, Bool.or_eq_false_iff] at h
  obtain ⟨⟨⟨hcomma, hquote⟩, hreturn⟩, hfeed⟩ := h
  have hother : separate? b = none := by
    simp only [separate?, comma, isLineEnd, hcomma, hreturn, hfeed, Bool.or_self,
      Bool.false_eq_true, if_false]
  simp only [step, hquote, hother, Option.none_or, Bool.false_eq_true, if_false, and_self]

theorem scan_bare (h : bytes.any needsQuotes = false) (rest : List UInt8) :
    scan .bare (bytes ++ rest) = (scan .bare rest).map (prepend bytes) := by
  induction bytes with
  | nil =>
    rw [List.nil_append, funext prepend_nil]
    exact Option.map_id'.symm
  | cons b bytes ih =>
    obtain ⟨hb, hbytes⟩ : needsQuotes b = false ∧ bytes.any needsQuotes = false := by
      simpa using h
    rw [List.cons_append, scan_cons (step_push hb).2, ih hbytes, Option.map_map]
    exact congrArg (Option.map · _) (funext fun rs => (prepend_append [b] bytes rs).symm)

/-- What stands between quotes is read up to the closing quote. -/
theorem scan_quoted (h : (separate? b).isSome) (bytes rest : List UInt8) :
    scan .quoted
        ((bytes.map fun b => if b == quote then [quote, quote] else [b]).flatten ++
          quote :: b :: rest) =
      (scan .bare (b :: rest)).map (prepend bytes) := by
  have hclose : step .quoted quote = some (.skip, .closing) := rfl
  induction bytes with
  | nil =>
    rw [List.map_nil, List.flatten_nil, List.nil_append, scan_skip hclose,
      (scan_separator h rest).2, funext prepend_nil]
    exact Option.map_id'.symm
  | cons c bytes ih =>
    have hprepend : Deed.apply (.push c) ∘ prepend bytes = prepend (c :: bytes) :=
      funext fun rs => (prepend_append [c] bytes rs).symm
    rw [List.map_cons, List.flatten_cons, List.append_assoc]
    by_cases hc : c = quote
    · have hpush : step .closing quote = some (.push quote, .quoted) := rfl
      rw [hc] at hprepend ⊢
      rw [if_pos BEq.rfl, List.cons_append, List.cons_append, List.nil_append,
        scan_skip hclose, scan_cons hpush, ih, Option.map_map, hprepend]
    · have hother : ¬ (c == quote) = true := by simpa using hc
      have hpush : step .quoted c = some (.push c, .quoted) := if_neg hother
      rw [if_neg hother, List.cons_append, List.nil_append, scan_cons hpush, ih, Option.map_map,
        hprepend]

/-- **A field is read back** up to the separator behind it. -/
theorem scan_field (h : (separate? b).isSome) (bytes rest : List UInt8) :
    scan .field ((field bytes).flatten ++ b :: rest) =
      (scan .bare (b :: rest)).map (prepend bytes) := by
  rw [field]
  split_ifs with hquotes
  · have hopen : step .field quote = some (.skip, .quoted) := rfl
    rw [List.cons_append, List.flatten_cons, List.flatten_append, List.flatten_singleton,
      List.cons_append, List.cons_append, List.nil_append, List.append_assoc, scan_skip hopen]
    exact scan_quoted h bytes rest
  · rw [Bool.not_eq_true] at hquotes
    have hsame : scan .field (bytes ++ b :: rest) = scan .bare (bytes ++ b :: rest) := by
      cases bytes with
      | nil => exact (scan_separator h rest).1
      | cons c bytes =>
        have hc : needsQuotes c = false := by
          rw [List.any_cons, Bool.or_eq_false_iff] at hquotes
          exact hquotes.1
        rw [List.cons_append, scan_cons (step_push hc).1, scan_cons (step_push hc).2]
    rw [← List.flatMap_def, List.flatMap_singleton', hsame, scan_bare hquotes]

/-! ## Lines -/

/-- A record in bytes. -/
def bytesOf (cells : List String) : List (List UInt8) :=
  cells.map fun cell => Text.Utf8.encode cell.toList

/-- The fields of a record are read back up to the line break behind them. -/
theorem scan_fields {fs : List (List UInt8)} (hfs : fs ≠ []) (rest : List UInt8) :
    scan .field ((fields fs).flatten ++ 10 :: rest) = (scan .line rest).map (fs :: ·) := by
  have hend : step .bare 10 = some (.endRecord, .line) := rfl
  have hcomma : step .bare 44 = some (.endField, .field) := rfl
  fun_induction fields fs with
  | case1 => exact absurd rfl hfs
  | case2 f =>
    rw [scan_field rfl, scan_cons hend, Option.map_map]
    refine congrArg (Option.map · _) (funext fun rs => ?_)
    simp only [Function.comp_apply, Deed.apply, prepend, List.append_nil]
  | case3 f fs hmore ih =>
    have hfs : fs ≠ [] := fun h => hmore h
    rw [List.flatten_append, List.flatten_cons, List.append_assoc, List.append_assoc,
      List.cons_append, List.nil_append, scan_field rfl, scan_cons hcomma, ih hfs,
      Option.map_map, Option.map_map]
    refine congrArg (Option.map · _) (funext fun rs => ?_)
    simp only [Function.comp_apply, Deed.apply, prepend, List.append_nil]

/-- A field that takes bytes begins with one that does not end the line. -/
theorem field_cases (f : List UInt8) :
    f = [] ∨ ∃ b bytes, (field f).flatten = b :: bytes ∧ isLineEnd b = false := by
  rw [field]
  split_ifs with hquotes
  · exact .inr ⟨quote, _, rfl, rfl⟩
  · cases f with
    | nil => exact .inl rfl
    | cons b f =>
      refine .inr ⟨b, _, rfl, ?_⟩
      simp only [needsQuotes, List.any_cons, Bool.not_eq_true, Bool.or_eq_false_iff] at hquotes
      simp only [isLineEnd, hquotes, Bool.or_self]

theorem fields_cases {fs : List (List UInt8)} (hfs : fs ≠ []) :
    fs = [[]] ∨ ∃ b bytes, (fields fs).flatten = b :: bytes ∧ isLineEnd b = false := by
  match fs with
  | [] => exact absurd rfl hfs
  | [f] => exact (field_cases f).imp_left (congrArg ([·]))
  | f :: g :: fs =>
    right
    rw [fields, List.flatten_append, List.flatten_cons]
    · obtain rfl | ⟨b, bytes, hbytes, hb⟩ := field_cases f
      · exact ⟨44, _, rfl, rfl⟩
      · exact ⟨b, _, by rw [hbytes, List.cons_append], hb⟩
    · exact List.cons_ne_nil g fs

/-- **A record is read back** from its line. -/
theorem scan_record {cells : List String} (hcells : cells ≠ []) (rest : List UInt8) :
    scan .line ((record cells).flatten ++ rest) = (scan .line rest).map (bytesOf cells :: ·) := by
  have hfs : bytesOf cells ≠ [] := mt List.map_eq_nil_iff.mp hcells
  show scan .line (((if (fields (bytesOf cells)).isEmpty then [[quote, quote]]
    else fields (bytesOf cells)) ++ [[10]]).flatten ++ rest) = _
  rw [List.flatten_append, List.flatten_singleton, List.append_assoc, List.cons_append,
    List.nil_append]
  obtain hempty | ⟨b, bytes, hbytes, hb⟩ := fields_cases hfs
  · have hopen : step .line quote = some (.skip, .quoted) := rfl
    have hclose : step .quoted quote = some (.skip, .closing) := rfl
    have hend : step .closing 10 = some (.endRecord, .line) := rfl
    rw [hempty]
    show scan .line (quote :: quote :: 10 :: rest) = _
    rw [scan_skip hopen, scan_skip hclose, scan_cons hend]
    rfl
  · have hsome : ¬ (fields (bytesOf cells)).isEmpty = true := by
      rw [List.isEmpty_iff]
      intro hnone
      rw [hnone] at hbytes
      cases hbytes
    rw [if_neg hsome, ← scan_fields hfs rest, hbytes]
    simp only [List.cons_append, scan, step, hb, Bool.false_eq_true, if_false]

/-- The lines of records. -/
def lines (records : List (List String)) : List UInt8 :=
  records.flatMap fun cells => (record cells).flatten

theorem scan_lines {records : List (List String)} (h : ∀ cells ∈ records, cells ≠ []) :
    scan .line (lines records) = some (records.map bytesOf) := by
  induction records with
  | nil => rfl
  | cons cells records ih =>
    rw [List.forall_mem_cons] at h
    rw [lines, List.flatMap_cons, scan_record h.1, ← lines, ih h.2, Option.map_some, List.map_cons]

/-- **Records are read back** from their lines. -/
theorem read?_lines {records : List (List String)} (h : ∀ cells ∈ records, cells ≠ []) :
    read? (lines records) = some records := by
  have hcell (cell : String) : Text.Utf8.decodeLossy (Text.Utf8.encode cell.toList) = cell := by
    rw [Text.Utf8.decodeLossy_encode, String.ofList_toList]
  have hcells (cells : List String) :
      (bytesOf cells).map Text.Utf8.decodeLossy = cells := by
    rw [bytesOf, List.map_map]
    exact List.map_id'' hcell cells
  rw [read?, scan_lines h, Option.map_some, List.map_map]
  exact congrArg some (List.map_id'' hcells records)

/-! ## What the printer writes -/

/-- A buffer gives up what it held, and holds what was taken in since. -/
theorem Buffer.flatten_add (b : Buffer) (atoms : List Atom) :
    (b.add atoms).2.flatten ++ (b.add atoms).1.bytes = b.bytes ++ atoms.flatten := by
  induction atoms generalizing b with
  | nil => rw [add, List.flatten_nil, List.nil_append, List.append_nil]
  | cons atom atoms ih =>
    rw [add]
    split_ifs
    · rw [ih, List.flatten_cons, bytes, List.reverse_append, List.reverse_reverse, bytes,
        List.append_assoc]
    · have hheld : bytes ⟨atom.length, atom.reverse⟩ = atom := List.reverse_reverse atom
      rw [List.flatten_cons, List.append_assoc, ih, hheld, List.flatten_cons]

theorem allBytes_write (b : Buffer) (cells : List String) :
    Chunk.allBytes (write b cells).2 ++ (write b cells).1.bytes =
      b.bytes ++ (record cells).flatten := by
  rw [← b.flatten_add, Chunk.allBytes, write, List.flatMap_map, List.flatMap_def, List.map_id']

theorem allBytes_body (header : Bool) (b : Buffer) (rows : List Row) :
    Chunk.allBytes ((printer header).body b rows).2 ++ ((printer header).body b rows).1.bytes =
      b.bytes ++ lines (rows.map (·.write .csv)) := by
  induction rows generalizing b with
  | nil => exact (List.append_nil _).symm
  | cons cells rows ih =>
    show Chunk.allBytes ((write b (cells.write .csv)).2 ++
      ((printer header).body (write b (cells.write .csv)).1 rows).2) ++
        ((printer header).body (write b (cells.write .csv)).1 rows).1.bytes = _
    rw [Chunk.allBytes_append, List.append_assoc, ih, ← List.append_assoc, allBytes_write,
      List.append_assoc, List.map_cons, lines, lines, List.flatMap_cons]

/-- Put together, what is written are the lines of the records. -/
theorem allBytes_chunks (header : Bool) (columns : List String) (rows : List Row) :
    Chunk.allBytes ((printer header).chunks columns rows none) =
      lines ((if header then [columns] else []) ++ rows.map (·.write .csv)) := by
  have hclose (b : Buffer) : Chunk.allBytes ((printer header).close b) = b.bytes :=
    List.append_nil b.bytes
  rw [Printer.chunks, Chunk.allBytes_append, Chunk.allBytes_append, Printer.tail, hclose,
    List.append_assoc, allBytes_body]
  cases header with
  | false => rfl
  | true =>
    show Chunk.allBytes (write {} columns).2 ++ ((write {} columns).1.bytes ++ _) = _
    rw [← List.append_assoc, allBytes_write]
    rfl

/-- **Comma-separated values can be read back**: the names of the columns, if they are written, and
the cells of every row, in order. Rows may have more cells than there are columns, or fewer. -/
theorem printer_reads (header : Bool) {columns : List String} (hcolumns : columns ≠ [])
    {rows : List Row} (hrows : ∀ row ∈ rows, row ≠ []) :
    ∃ output, (printer header).Writes columns rows output ∧
      read? output =
        some ((if header then [columns] else []) ++ rows.map (·.write .csv)) := by
  refine ⟨_, (printer header).writes_chunks columns rows, ?_⟩
  rw [allBytes_chunks, read?_lines]
  intro cells hcells
  rcases List.mem_append.mp hcells with hheader | hwritten
  · rw [List.mem_ite_nil_right, List.mem_singleton] at hheader
    rw [hheader.2]
    exact hcolumns
  · obtain ⟨row, hrow, rfl⟩ := List.mem_map.mp hwritten
    exact mt List.map_eq_nil_iff.mp (hrows row hrow)

/-- Cells with separators and quotes in them, an empty one alone, and rows of several lengths. -/
def awkward : List Row :=
  [[.text "a,b", .text "say \"no\"\r\n"], [.text ""], [.text "", .text ""],
    [.int 1, .null, .text "more"]]

theorem printer_reads_awkward :
    let conn : Connection := { backend := .ofScripts [] }
    let s := (Batch.mk [] .idle false).fetch false (.finite awkward) ⟨[], none⟩ conn
    (["x", "y"] : List String) ≠ [] ∧ (∀ row ∈ awkward, row ≠ []) ∧
      ∃ last, s.1.rows false 5 s.2 = (awkward, some .done, last) ∧
        read? ((printer true).drain false ["x", "y"] s.1 s.2 ⟨none, []⟩).sink.written =
          some [["x", "y"], ["a,b", "say \"no\"\r\n"], [""], ["", ""], ["1", "NULL", "more"]] := by
  intro conn s
  have hcolumns : (["x", "y"] : List String) ≠ [] := by decide
  have hrows : ∀ row ∈ awkward, row ≠ [] := by decide
  have hreads := Batch.readsOut_fetch (b := ⟨[], .idle, false⟩) rfl awkward ⟨[], none⟩ conn
  have hend := hreads.rows_eq (n := 5) (by decide)
  obtain ⟨output, hwrites, hread⟩ := printer_reads true hcolumns hrows
  refine ⟨hcolumns, hrows, _, hend, ?_⟩
  rw [hwrites _ _ _ _ _ _ [] hend, List.nil_append, hread]
  decide +kernel

end SqlConsole.Csv
