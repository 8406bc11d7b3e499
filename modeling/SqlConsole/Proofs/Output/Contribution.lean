import SqlConsole.Proofs.Batch.Extent
import SqlConsole.Proofs.Dump.Query

/-!
# What each result set contributes

A batch is printed result set by result set. What a result set contributes depends on nothing but
its columns, its rows and the error behind them (`Layout.output`): not on what was printed before,
and not on the statement that it comes from. Without an error it is what is printed of this result
set alone (`solo`). With an error, a printer that waits for the last row has written nothing; the
other two have written what they write for the rows that there were, but JSON lacks the end of its
array (`Contributes`).

The first error of a batch is the end of its printing. `Connection.print_contributions` puts the two
together: what is printed of a text, the error that it ends in, and the statements that are run.

Rows are printed by one lemma for all printers (`Printer.feed_rows`), by induction on how they are
read, and result sets by induction on how the batch is drained (`Drains.printWithin_eq`). So what a
printer makes of rows that end without an error can be said of the printer alone
(`Printer.writes_chunks`).
-/

namespace SqlConsole

/-! ## Sinks without a limit -/

/-- All bytes of chunks. -/
def Chunk.allBytes (chunks : List Chunk) : List UInt8 := chunks.flatMap (·.bytes)

theorem Chunk.allBytes_append (a b : List Chunk) : allBytes (a ++ b) = allBytes a ++ allBytes b :=
  List.flatMap_append

theorem Sink.putAll_unlimited (chunks : List Chunk) (written : List UInt8) :
    (⟨none, written⟩ : Sink).putAll chunks = (none, ⟨none, written ++ Chunk.allBytes chunks⟩) := by
  induction chunks generalizing written with
  | nil => simp [putAll, Chunk.allBytes]
  | cons chunk chunks ih =>
    simp only [putAll, put, ih, Chunk.allBytes, List.flatMap_cons, List.append_assoc]

/-! ## Result sets -/

namespace Printer

variable {σ : Type} (p : Printer σ)

/-- What is written for rows, and what is remembered of them. -/
def body (s : σ) : List Row → σ × List Chunk
  | [] => (s, [])
  | cells :: rows =>
    let (s, chunks) := p.row s cells
    let (s, more) := body s rows
    (s, chunks ++ more)

/-- What is written behind the rows. -/
def tail (s : σ) : Option Error → List Chunk
  | none => p.close s
  | some _ => p.abort s

/-- What is written for a result set. -/
def chunks (columns : List String) (rows : List Row) (failure : Option Error) : List Chunk :=
  let (s, head) := p.start columns
  let (s, body) := p.body s rows
  head ++ body ++ p.tail s failure

variable {rows : List Row} {failure : Option Error}

section Rows

variable {cancelled : Bool} {k : Nat} {b : Batch} {conn : Connection} {last : Batch × Connection}

/-- **Rows that come to an end** are all printed, and then what is behind them. -/
theorem feed_rows (h : b.rows cancelled k conn = (rows, some (Batch.behindRows failure), last))
    {fuel : Nat} (hfuel : rows.length < fuel) (memory : σ) (written : List UInt8) :
    p.feed cancelled fuel memory b conn ⟨none, written⟩ =
      ⟨failure, last.1, last.2, ⟨none, written ++ Chunk.allBytes ((p.body memory rows).2 ++
        p.tail (p.body memory rows).1 failure)⟩⟩ := by
  obtain ⟨fuel, rfl⟩ := Nat.exists_eq_add_one_of_ne_zero (Nat.ne_zero_of_lt hfuel)
  induction k generalizing b conn rows fuel memory written with
  | zero => cases h
  | succ k ih =>
    obtain ⟨cells, more, b', conn', hrow, hmore, rfl⟩ | ⟨result, -, hrow, rfl, hstop⟩ :=
      Batch.rows_succ_cases h
    · have hless : more.length < fuel := Nat.lt_of_succ_lt_succ hfuel
      obtain ⟨fuel, rfl⟩ := Nat.exists_eq_add_one_of_ne_zero (Nat.ne_zero_of_lt hless)
      rw [feed]
      simp only [hrow, Sink.putAll_unlimited, ih hmore _ _ fuel hless, body,
        Chunk.allBytes_append, List.append_assoc]
    · obtain rfl := Option.some.inj hstop
      cases failure <;>
        simp only [feed, hrow, Batch.behindRows, Option.elim, Sink.putAll_unlimited, body, tail,
          List.nil_append]

/-- The bound on the rows is never met. -/
theorem drain_rows (h : b.rows cancelled k conn = (rows, some (Batch.behindRows failure), last))
    (columns : List String) (written : List UInt8) :
    p.drain cancelled columns b conn ⟨none, written⟩ =
      ⟨failure, last.1, last.2,
        ⟨none, written ++ Chunk.allBytes (p.chunks columns rows failure)⟩⟩ := by
  simp only [drain, Sink.putAll_unlimited, p.feed_rows h (Batch.length_lt_reach h _), chunks,
    Chunk.allBytes_append, List.append_assoc]

end Rows

theorem drain_unlimited {s last : Batch × Connection} (h : Batch.ReadsOut s rows failure last)
    (columns : List String) (written : List UInt8) :
    p.drain false columns s.1 s.2 ⟨none, written⟩ =
      ⟨failure, last.1, last.2,
        ⟨none, written ++ Chunk.allBytes (p.chunks columns rows failure)⟩⟩ :=
  p.drain_rows (h.rows_eq (Nat.lt_succ_self rows.length)) columns written

/-- Every result set of these rows that comes to its end without an error is written as these bytes,
whatever was written before. -/
def Writes (columns : List String) (rows : List Row) (output : List UInt8) : Prop :=
  ∀ cancelled k b conn b' conn' written,
    b.rows cancelled k conn = (rows, some .done, b', conn') →
      p.drain cancelled columns b conn ⟨none, written⟩ =
        ⟨none, b', conn', ⟨none, written ++ output⟩⟩

theorem writes_chunks (columns : List String) (rows : List Row) :
    p.Writes columns rows (Chunk.allBytes (p.chunks columns rows none)) := by
  intro cancelled k b conn b' conn' written h
  have hnone : some RowResult.done = some (Batch.behindRows none) := rfl
  rw [hnone] at h
  exact p.drain_rows h columns written

/-- A printer that collects something of every row. -/
theorem body_collect {α : Type} {p : Printer (List α)} {f : Row → α}
    (hrow : ∀ s cells, p.row s cells = (s ++ [f cells], [])) (collected : List α)
    (rows : List Row) : p.body collected rows = (collected ++ rows.map f, []) := by
  induction rows generalizing collected with
  | nil => rw [List.map_nil, List.append_nil, body]
  | cons cells rows ih =>
    rw [body, hrow]
    simp only [ih, List.append_assoc, List.nil_append, List.map_cons, List.cons_append]

/-- A printer that writes nothing before the last row was read. -/
structure Waits (p : Printer σ) : Prop where
  start : ∀ columns, (p.start columns).2 = []
  row : ∀ s cells, (p.row s cells).2 = []
  abort : ∀ s, p.abort s = []

variable {p}

theorem Waits.body (hp : p.Waits) (memory : σ) (rows : List Row) : (p.body memory rows).2 = [] := by
  induction rows generalizing memory with
  | nil => rfl
  | cons cells rows ih => simp only [Printer.body, hp.row, ih, List.append_nil]

/-- A printer that waits writes nothing if there is an error. -/
theorem Waits.chunks (hp : p.Waits) (columns : List String) (rows : List Row) (e : Error) :
    p.chunks columns rows (some e) = [] := by
  simp only [Printer.chunks, tail, hp.start, hp.body, hp.abort, List.append_nil]

theorem waits_silent : silent.Waits := ⟨fun _ => rfl, fun _ _ => rfl, fun _ => rfl⟩

end Printer

theorem Plan.waits_printer : printer.Waits := ⟨fun _ => rfl, fun _ _ => rfl, fun _ => rfl⟩

theorem Table.waits_printer (header : Bool) : (printer header).Waits :=
  ⟨fun _ => rfl, fun _ _ => rfl, fun _ => rfl⟩

/-- Comma-separated values end in the same way behind an error. -/
theorem Csv.chunks_failure (header : Bool) (columns : List String) (rows : List Row)
    (failure : Option Error) :
    (printer header).chunks columns rows failure = (printer header).chunks columns rows none := by
  cases failure <;> rfl

namespace Records

theorem started_body (columns : List String) (started : Bool) (rows : List Row) :
    (printer.body (columns, started) rows).1.2 = (started || !rows.isEmpty) := by
  induction rows generalizing started with
  | nil => exact (Bool.or_false started).symm
  | cons cells rows ih =>
    show (printer.body (columns, true) rows).1.2 = _
    rw [ih, Bool.true_or, List.isEmpty_cons, Bool.not_false, Bool.or_true]

/-- With at least one row only the end of the array is lacking behind an error. -/
theorem chunks_none (columns : List String) {rows : List Row} (hrows : rows ≠ []) (e : Error) :
    printer.chunks columns rows none =
      printer.chunks columns rows (some e) ++ [chunk .write [']', '\n']] := by
  have hstarted : (printer.body (columns, false) rows).1.2 = true := by
    rw [started_body, Bool.false_or, Bool.not_eq_true', List.isEmpty_eq_false_iff]
    exact hrows
  show _ ++ _ ++ (if (printer.body (columns, false) rows).1.2 then _ else _) = _ ++ _ ++ [] ++ _
  rw [if_pos hstarted, List.append_nil]

end Records

namespace Layout

/-- What is written for a result set. -/
def output (layout : Layout) (columns : List String) (rows : List Row) (failure : Option Error) :
    List UInt8 :=
  Chunk.allBytes <| match layout with
    | silent => Printer.silent.chunks columns rows failure
    | plan => Plan.printer.chunks columns rows failure
    | table header => (Table.printer header).chunks columns rows failure
    | csv header => (Csv.printer header).chunks columns rows failure
    | json => Records.printer.chunks columns rows failure

/-- **A result set that is read to its end** is printed, whatever was printed before. -/
theorem print_unlimited (layout : Layout) {s last : Batch × Connection} {rows : List Row}
    {failure : Option Error} (h : Batch.ReadsOut s rows failure last) (columns : List String)
    (written : List UInt8) :
    layout.print false columns s.1 s.2 ⟨none, written⟩ =
      ⟨failure, last.1, last.2, ⟨none, written ++ layout.output columns rows failure⟩⟩ := by
  cases layout with
  | silent => exact Printer.silent.drain_unlimited h columns written
  | plan => exact Plan.printer.drain_unlimited h columns written
  | table header => exact (Table.printer header).drain_unlimited h columns written
  | csv header => exact (Csv.printer header).drain_unlimited h columns written
  | json => exact Records.printer.drain_unlimited h columns written

end Layout

/-! ## Batches -/

namespace Batch

/-- What is written for the result sets of a batch, and the error that it ends in. -/
def output (settings : PrintSettings) :
    List (Except Error Outcome) → List UInt8 × Option Error
  | [] => ([], none)
  | .error e :: _ => ([], some e)
  | .ok o :: shown =>
    let own := (Layout.choose o.columns settings).output o.columns o.rows o.failure
    match o.failure with
    | some e => (own, some e)
    | none =>
      let (more, error) := output settings shown
      (own ++ more, error)

/-- The number of result sets among what a batch shows. -/
def setCount (shown : List (Except Error Outcome)) : Nat := shown.countP (·.isOk)

variable {s last : Batch × Connection}

/-- There is nothing behind the end. -/
theorem Drains.of_ended {shown : List (Except Error Outcome)} (h : Drains s shown last)
    (hs : s.1.stage = .ended) : last = s :=
  ((Drains.done (next_ended hs)).unique h).2

/-- An error behind the rows is the end. -/
theorem ReadsOut.stage_of_error {rows : List Row} {e : Error}
    (h : ReadsOut s rows (some e) last) : last.1.stage = .ended := by
  generalize hfailure : some e = failure at h
  induction h with
  | done h => cases hfailure
  | @failed s s' e' h =>
    have hrow := (row_spec false s.1 s.2).2 e'
    rw [h] at hrow
    exact hrow rfl
  | row _ _ ih => exact ih hfailure

/-- **A batch is printed as it is drained**, up to the first error. -/
theorem Drains.printWithin_eq {shown : List (Except Error Outcome)} (h : Drains s shown last)
    (settings : PrintSettings) {fuel : Nat} (hfuel : setCount shown < fuel) (written : List UInt8) :
    s.1.printWithin false settings fuel s.2 ⟨none, written⟩ =
      ((output settings shown).2, last.2, ⟨none, written ++ (output settings shown).1⟩) := by
  obtain ⟨fuel, rfl⟩ := Nat.exists_eq_add_one_of_ne_zero (Nat.ne_zero_of_lt hfuel)
  induction h generalizing fuel written with
  | done h => simp only [printWithin, h, output, List.append_nil]
  | @failed s s' last e shown h hrest =>
    have hended := (next_spec false s.1 s.2).2 e
    rw [h] at hended
    obtain rfl := hrest.of_ended (hended rfl)
    simp only [printWithin, h, output, List.append_nil]
  | @set s s' s'' last columns rows failure shown h hrows hrest ih =>
    cases failure with
    | some e =>
      obtain rfl := hrest.of_ended hrows.stage_of_error
      simp only [printWithin, h, Layout.print_unlimited _ hrows, output]
    | none =>
      have hmore : setCount shown < fuel := by
        have hcount : setCount (.ok ⟨columns, rows, none⟩ :: shown) = setCount shown + 1 :=
          List.countP_cons_of_pos rfl
        omega
      obtain ⟨fuel, rfl⟩ := Nat.exists_eq_add_one_of_ne_zero (Nat.ne_zero_of_lt hmore)
      rw [printWithin]
      simp only [h, Layout.print_unlimited _ hrows, ih _ fuel hmore, output, List.append_assoc]

/-! ## How many result sets there are -/

section Scripts

variable {scripts : List (String × Script)}

theorem setCount_append (a b : List (Except Error Outcome)) :
    setCount (a ++ b) = setCount a + setCount b := List.countP_append

theorem setCount_shown_le (script : Script) : setCount (shown script) ≤ script.sets.length := by
  rw [shown]
  cases script.refusal with
  | some message => exact Nat.zero_le _
  | none =>
    fun_induction shownSets (script.failure.map .ofBackend) script.sets with
    | case1 => exact Nat.zero_le _
    | case2 => exact Nat.zero_le _
    | case3 => exact Nat.le_refl _
    | case4 columns rows set sets ih =>
      have hcount := List.countP_cons_of_pos (p := (Except.isOk ·))
        (l := shownSets (script.failure.map .ofBackend) (set :: sets))
        (a := .ok ⟨columns, rows, none⟩) rfl
      simp only [setCount, List.length_cons] at ih hcount ⊢
      omega

/-- **The bound on the result sets** is never met. -/
theorem setCount_reference_le (hfinite : ∀ s ∈ scripts, s.2.endless = false) (todo : List String) :
    setCount (reference scripts todo).1 ≤
      todo.foldr (fun sql n => (Backend.ofScripts scripts sql).sets.length + n) 0 := by
  induction todo with
  | nil => exact Nat.zero_le _
  | cons sql todo ih =>
    have hsets : (Backend.ofScripts scripts sql).sets.length =
        (scriptOf scripts sql).sets.length := by
      rw [ofScripts_eq hfinite, List.length_map]
    have hshown := setCount_shown_le (scriptOf scripts sql)
    rw [List.foldr_cons, hsets, reference]
    split
    · exact Nat.le_add_right_of_le hshown
    · rw [setCount_append]
      exact Nat.add_le_add hshown ih

/-! ## What is run -/

/-- Behind a statement that fails no other is run. -/
theorem not_fails_of_mem_dropLast_reference (todo : List String) :
    ∀ sql ∈ (reference scripts todo).2.dropLast, fails (scriptOf scripts sql) = false := by
  induction todo with
  | nil => simp [reference]
  | cons first todo ih =>
    rw [reference]
    split
    · simp
    · rename_i hfirst
      intro sql hsql
      cases hran : (reference scripts todo).2 with
      | nil => simp [hran] at hsql
      | cons next ran =>
        rw [hran] at ih
        simp only [hran, List.dropLast_cons_cons, List.mem_cons] at hsql
        rcases hsql with rfl | hsql
        · simpa using hfirst
        · exact ih sql hsql

theorem reference_prefix (todo : List String) : (reference scripts todo).2 <+: todo := by
  induction todo with
  | nil => exact List.prefix_refl _
  | cons sql todo ih =>
    rw [reference]
    split
    · exact List.prefix_append [sql] todo
    · exact (List.prefix_cons_inj sql).mpr ih

/-- A batch that is started can be drained, and runs statements in order up to one that fails. -/
theorem exists_drains_start (hfinite : ∀ s ∈ scripts, s.2.endless = false)
    (statements : List Statement) {conn : Connection} (hb : conn.backend = .ofScripts scripts) :
    ∃ shown last ran rows, Drains (start statements conn, conn) shown last ∧
      setCount shown < (start statements conn).setsLeft conn.backend ∧
      last.2 = conn.used ran rows ∧ ran <+: texts statements ∧
      ∀ sql ∈ ran.dropLast, fails (scriptOf scripts sql) = false := by
  cases hbroken : conn.broken with
  | true =>
    have hstage : (start statements conn).stage = .refused .brokenConnection := by
      rw [start, hbroken]
      rfl
    exact ⟨_, _, [], 0, .failed (next_refused hstage) (.done (next_ended rfl)), Nat.succ_pos _,
      conn.used_nil.symm, List.nil_prefix, by simp⟩
  | false =>
    have hstart : start statements conn = ⟨texts statements, .idle, false⟩ := by
      rw [start, hbroken]
      rfl
    obtain ⟨rest, hdrains⟩ := drains_idle hfinite (texts statements) hb
    rw [hstart]
    refine ⟨_, _, _, _, hdrains, ?_, rfl, reference_prefix _,
      not_fails_of_mem_dropLast_reference _⟩
    rw [setsLeft, hb, Nat.zero_add]
    exact Nat.lt_succ_of_le (setCount_reference_le hfinite _)

end Scripts

end Batch

theorem Connection.print_of_drains {conn : Connection} {sql : String} {last : Batch × Connection}
    {shown : List (Except Error Batch.Outcome)}
    (h : Batch.Drains (Batch.start (Statement.split sql) conn, conn) shown last)
    (hcount : Batch.setCount shown <
      (Batch.start (Statement.split sql) conn).setsLeft conn.backend)
    (settings : PrintSettings) (written : List UInt8) :
    conn.print sql settings ⟨none, written⟩ =
      ((Batch.output settings shown).2, last.2,
        ⟨none, written ++ (Batch.output settings shown).1⟩) :=
  h.printWithin_eq settings hcount written

/-! ## Result sets alone -/

/-- What is printed of a result set alone: of a statement that yields it and nothing else. -/
def solo (settings : PrintSettings) (columns : List String) (rows : List Row) : List UInt8 :=
  let conn : Connection := { backend := .ofScripts [("SELECT", { sets := [(columns, rows)] })] }
  (conn.print "SELECT" settings {}).2.2.written

/-- Nothing is printed before a result set or behind it. -/
theorem solo_eq (settings : PrintSettings) (columns : List String) (rows : List Row) :
    solo settings columns rows = (Layout.choose columns settings).output columns rows none := by
  let script : Script := { sets := [(columns, rows)] }
  let conn : Connection := { backend := .ofScripts [("SELECT", script)] }
  have hreply : conn.backend "SELECT" =
      ⟨script.refusal, script.sets.map Batch.written, script.failure⟩ := rfl
  have hstart : Batch.start (Statement.split "SELECT") conn = ⟨["SELECT"], .idle, false⟩ := rfl
  have hdrains : Batch.Drains (⟨["SELECT"], .idle, false⟩, conn) _ _ :=
    Batch.drains_statement hreply (.done rfl)
  rw [← hstart] at hdrains
  have hcount : Batch.setCount (Batch.shown script ++ []) <
      (Batch.start (Statement.split "SELECT") conn).setsLeft conn.backend := Nat.one_lt_two
  have hprint := conn.print_of_drains hdrains hcount settings []
  calc solo settings columns rows
      = (conn.print "SELECT" settings ⟨none, []⟩).2.2.written := rfl
    _ = [] ++ ((Layout.choose columns settings).output columns rows none ++ []) := by
        rw [hprint]
        rfl
    _ = _ := by rw [List.nil_append, List.append_nil]

/-- What a result set contributes to the output of its batch. -/
inductive Contributes (settings : PrintSettings) : Batch.Outcome → List UInt8 → Prop
  /-- Without an error, what is printed of it alone. -/
  | whole {columns : List String} {rows : List Row} :
    Contributes settings ⟨columns, rows, none⟩ (solo settings columns rows)
  /-- With an error, nothing as a table, of a query plan, or without columns. -/
  | nothing {columns : List String} {rows : List Row} {e : Error}
    (h : settings.mode = .table ∨ columns = Plan.columns ∨ columns = []) :
    Contributes settings ⟨columns, rows, some e⟩ []
  /-- Comma-separated values are those of the rows that there were. -/
  | csv {columns : List String} {rows : List Row} {e : Error} (hmode : settings.mode = .csv)
    (hplan : columns ≠ Plan.columns) (hcolumns : columns ≠ []) :
    Contributes settings ⟨columns, rows, some e⟩ (solo settings columns rows)
  /-- An array without a record is not begun. -/
  | noRecord {columns : List String} {e : Error} (hmode : settings.mode = .json) :
    Contributes settings ⟨columns, [], some e⟩ []
  /-- An array with records is not ended. -/
  | records {columns : List String} {rows : List Row} {e : Error} {body : List UInt8}
    (hmode : settings.mode = .json) (hplan : columns ≠ Plan.columns) (hcolumns : columns ≠ [])
    (hrows : rows ≠ [])
    (hbody : solo settings columns rows = body ++ Text.Utf8.encode [']', '\n']) :
    Contributes settings ⟨columns, rows, some e⟩ body

namespace Layout

variable {columns : List String} {settings : PrintSettings}

/-- The mode counts for all result sets but query plans and those without columns. -/
theorem choose_mode (hplan : columns ≠ Plan.columns) (hcolumns : columns ≠ []) :
    choose columns settings = match settings.mode with
      | .table => table settings.withHeader
      | .csv => csv settings.withHeader
      | .json => json := by
  cases hmode : settings.mode <;> simp [choose, hmode, hplan, hcolumns]

theorem output_error (h : settings.mode = .table ∨ columns = Plan.columns ∨ columns = [])
    (rows : List Row) (e : Error) :
    (choose columns settings).output columns rows (some e) = [] := by
  rw [choose]
  split_ifs with hcolumns hplan
  · exact congrArg Chunk.allBytes (Printer.waits_silent.chunks columns rows e)
  · exact congrArg Chunk.allBytes (Plan.waits_printer.chunks columns rows e)
  · have hmode : settings.mode = .table :=
      h.resolve_right fun h => h.elim hplan (hcolumns ∘ List.isEmpty_iff.mpr)
    rw [hmode]
    exact congrArg Chunk.allBytes ((Table.waits_printer settings.withHeader).chunks columns rows e)

/-- **A result set contributes** what its layout writes. -/
theorem contributes (settings : PrintSettings) (o : Batch.Outcome) :
    Contributes settings o ((choose o.columns settings).output o.columns o.rows o.failure) := by
  obtain ⟨columns, rows, _ | e⟩ := o
  · rw [← solo_eq]
    exact .whole
  by_cases hnothing : settings.mode = .table ∨ columns = Plan.columns ∨ columns = []
  · rw [output_error hnothing]
    exact .nothing hnothing
  obtain ⟨htable, hplan, hcolumns⟩ : _ ∧ _ ∧ _ := by simpa [not_or] using hnothing
  have hchoose := @choose_mode columns settings hplan hcolumns
  cases hmode : settings.mode with
  | table => exact absurd hmode htable
  | csv =>
    have hsame : (choose columns settings).output columns rows (some e) =
        solo settings columns rows := by
      rw [solo_eq, hchoose, hmode, output, Csv.chunks_failure]
      rfl
    rw [hsame]
    exact .csv hmode hplan hcolumns
  | json =>
    by_cases hrows : rows = []
    · have hempty : (choose columns settings).output columns rows (some e) = [] := by
        rw [hchoose, hmode, hrows]
        rfl
      rw [hempty, hrows]
      exact .noRecord hmode
    · refine .records hmode hplan hcolumns hrows ?_
      rw [solo_eq, hchoose, hmode, output, Records.chunks_none columns hrows e,
        Chunk.allBytes_append]
      rfl

end Layout

/-! ## Texts -/

/-- **The output of a batch**: what its result sets contribute, one after the other, and the first
error. -/
inductive Prints (settings : PrintSettings) :
    List (Except Error Batch.Outcome) → List UInt8 → Option Error → Prop
  | done : Prints settings [] [] none
  /-- An error in place of a result set is the end. -/
  | refused {e : Error} {more : List (Except Error Batch.Outcome)} :
    Prints settings (.error e :: more) [] (some e)
  /-- An error behind rows is the end. -/
  | failed {columns : List String} {rows : List Row} {e : Error}
    {more : List (Except Error Batch.Outcome)} {own : List UInt8}
    (hown : Contributes settings ⟨columns, rows, some e⟩ own) :
    Prints settings (.ok ⟨columns, rows, some e⟩ :: more) own (some e)
  | set {columns : List String} {rows : List Row} {more : List (Except Error Batch.Outcome)}
    {own bytes : List UInt8} {error : Option Error}
    (hown : Contributes settings ⟨columns, rows, none⟩ own)
    (hmore : Prints settings more bytes error) :
    Prints settings (.ok ⟨columns, rows, none⟩ :: more) (own ++ bytes) error

theorem Batch.prints_output (settings : PrintSettings) (shown : List (Except Error Outcome)) :
    Prints settings shown (output settings shown).1 (output settings shown).2 := by
  induction shown with
  | nil => exact .done
  | cons first shown ih =>
    match first with
    | .error e => exact .refused
    | .ok ⟨columns, rows, some e⟩ => exact .failed (Layout.contributes settings _)
    | .ok ⟨columns, rows, none⟩ => exact .set (Layout.contributes settings _) ih

/-- **What is printed of a text.** On a database of scripts that come to an end, the batch of the
statements of a text can be drained. Printing the text leaves the connection as draining it does. It
writes what the result sets that are then shown contribute, in order and up to the first error, and
ends in that error, or without one. The statements that are run are the first ones of the text, and
none of them but the last fails. -/
theorem Connection.print_contributions {scripts : List (String × Script)}
    (hfinite : ∀ s ∈ scripts, s.2.endless = false) {conn : Connection}
    (hb : conn.backend = .ofScripts scripts) (sql : String) (settings : PrintSettings)
    (written : List UInt8) :
    ∃ shown last bytes error,
      Batch.Drains (Batch.start (Statement.split sql) conn, conn) shown last ∧
      Prints settings shown bytes error ∧
      conn.print sql settings ⟨none, written⟩ = (error, last.2, ⟨none, written ++ bytes⟩) ∧
      ∃ ran rows, last.2 = conn.used ran rows ∧ ran <+: Batch.texts (Statement.split sql) ∧
        ∀ s ∈ ran.dropLast, Batch.fails (Batch.scriptOf scripts s) = false := by
  obtain ⟨shown, last, ran, rows, hdrains, hcount, hruns⟩ :=
    Batch.exists_drains_start hfinite (Statement.split sql) hb
  exact ⟨shown, last, _, _, hdrains, Batch.prints_output settings shown,
    conn.print_of_drains hdrains hcount settings written, ran, rows, hruns⟩

/-- Scripts of three statements, of which the second fails behind its row. -/
def failingSecond : List (String × Script) :=
  [("SELECT a", { sets := [(["a"], [[.int 1]])] }),
    ("SELECT b", { sets := [(["b"], [[.int 2]])], failure := some "full" }),
    ("SELECT c", { sets := [(["c"], [[.int 3]])] })]

/-- The first array is ended, the second one is not, and the third statement is not run. -/
theorem Connection.print_contributions_failingSecond :
    let conn : Connection := { backend := .ofScripts failingSecond }
    let text := "SELECT a; SELECT b; SELECT c"
    (∀ s ∈ failingSecond, s.2.endless = false) ∧
      (∃ shown last bytes error,
        Batch.Drains (Batch.start (Statement.split text) conn, conn) shown last ∧
        Prints { mode := .json } shown bytes error ∧
        conn.print text { mode := .json } ⟨none, []⟩ = (error, last.2, ⟨none, [] ++ bytes⟩) ∧
        ∃ ran rows, last.2 = conn.used ran rows ∧ ran <+: Batch.texts (Statement.split text) ∧
          ∀ s ∈ ran.dropLast, Batch.fails (Batch.scriptOf failingSecond s) = false) ∧
      (conn.print text { mode := .json } {}).1 = some (.ofBackend "full") ∧
      (conn.print text { mode := .json } {}).2.1.log = ["SELECT a", "SELECT b"] ∧
      (conn.print text { mode := .json } {}).2.2.written =
        Text.Utf8.encode "[\x7b\"a\":\"1\"\x7d]\n[\x7b\"b\":\"2\"\x7d".toList :=
  ⟨by decide,
    print_contributions (by decide) rfl "SELECT a; SELECT b; SELECT c" { mode := .json } [],
    rfl, rfl, by decide⟩

end SqlConsole
