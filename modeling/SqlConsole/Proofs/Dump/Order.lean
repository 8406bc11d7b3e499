import Mathlib.Data.Seq.Basic
import SqlConsole.Proofs.Dump.Answers

/-!
# The order of a dump

A dump asks its questions in between its lines. If all of them are answered, what happens is a
sequence of questions and lines that can be written down from the answers (`Dump.events`), and that
has no end if a table has none. For each table the definitions are asked for and the query for the
rows is started; then come the table's own definition, a line for each row, and the definitions that
belong to it. With each line of a row the next row is fetched, so the dump is one row ahead
(`fetched_insertions_le`).

`requests_eq_trace` says that a dump does exactly this. A request for a line is answered with the
next line, and what is asked until then is what stands in front of it: no question is asked before
its time. `Dump.remaining` says of a dump at any point what is still to happen, and `Goes` what of
it happens first.
-/

namespace SqlConsole

open Stream' (Seq)

/-- The answers to the questions of a dump. -/
structure Dump.Replies where
  /-- To the question for the tables. -/
  tables : List Row
  /-- To the question for what belongs to a table. -/
  definitions : String → List Row
  /-- The first result set of the query for the rows of a table. -/
  rows : String → Rows
  /-- To the question for the views. -/
  views : List Row

namespace Dump

/-- The definitions that belong to a table. -/
def Replies.described (replies : Replies) (table : String) : TableDefinitions :=
  .ofPairs (Catalog.pairs (replies.definitions table))

/-- **All questions of a dump are answered**, and each query for rows has a result set which no
error ends. -/
structure Answered (settings : DumpSettings) (backend : Backend) (replies : Replies) : Prop where
  tables : backend.answer? Catalog.tablesQuery = some replies.tables
  definitions : ∀ table ∈ tableNames settings replies.tables,
    backend.answer? (Catalog.definitionsQuery table) = some (replies.definitions table)
  rows : ∀ table ∈ tableNames settings replies.tables, ∃ columns sets,
    (backend (rowsQuery table)).refusal = none ∧
    (backend (rowsQuery table)).sets = ⟨columns, replies.rows table⟩ :: sets ∧
    (Remainder.mk sets (backend (rowsQuery table)).failure).error? = none
  views : settings.includeViews = true → backend.answer? Catalog.viewsQuery = some replies.views

/-! ## The sequence of events -/

/-- What happens while a dump is read. -/
inductive Event where
  /-- The database is asked, and this number of rows is fetched. -/
  | asked (sql : String) (rows : Nat)
  /-- A line is handed over, and this number of rows is fetched meanwhile. -/
  | line (text : String) (rows : Nat)
  deriving DecidableEq, Repr

namespace Event

def rows : Event → Nat
  | asked _ n | line _ n => n

def sql? : Event → Option String
  | asked sql _ => some sql
  | line _ _ => none

def text? : Event → Option String
  | line text _ => some text
  | asked _ _ => none

/-- The connection once something more happened on it. -/
def use (conn : Connection) (e : Event) : Connection := conn.used e.sql?.toList e.rows

/-- A line for which nothing is fetched. -/
def ofLine (l : Line) : Event := .line l.text 0

/-- A question to the catalog. -/
def question (backend : Backend) (sql : String) : Event := .asked sql (backend.spent sql)

end Event

/-- The number of rows that are fetched ahead: one, if there is one. -/
def ahead (held : Option (Row × Rows)) : Nat := held.elim 0 fun _ => 1

/-- The lines of rows, the first of which is fetched. With each line the row behind is fetched. -/
def insertions (table : String) : Option (Row × Rows) → Seq Event :=
  Seq.corec fun held => held.map fun (cells, rows) =>
    (.line (Line.row table cells).text (ahead rows.next?), rows.next?)

section Reference

variable (settings : DumpSettings) (backend : Backend) (replies : Replies)

/-- What happens for one table. -/
def tableEvents (table : String) : Seq Event :=
  let held := (replies.rows table).next?
  (Seq.ofList ([.question backend (Catalog.definitionsQuery table),
      .asked (rowsQuery table) (ahead held)] ++
      (replies.described table).own.toList.map (.ofLine <| .definition ·))).append
    ((insertions table held).append
      (Seq.ofList ((replies.described table).attached.map (.ofLine <| .definition ·))))

/-- What happens behind the tables. -/
def viewEvents : List Event :=
  (if settings.includeViews then
    .question backend Catalog.viewsQuery ::
      (Catalog.firsts replies.views).map (.ofLine <| .definition ·)
  else []) ++ (closingLines settings).map .ofLine

/-- What happens for several tables and behind them. -/
def tablesEvents : List String → Seq Event
  | [] => Seq.ofList (viewEvents settings backend replies)
  | table :: tables => (tableEvents backend replies table).append (tablesEvents tables)

/-- **What happens while a dump is read.** -/
def events : Seq Event :=
  (Seq.ofList (.question backend Catalog.tablesQuery ::
      (openingLines settings).map .ofLine)).append
    (tablesEvents settings backend replies (tableNames settings replies.tables))

end Reference

/-! ## Requests for lines -/

/-- The answers to the first requests for a line, each with the connection as it is then. -/
def requests : Nat → Dump → Connection → List (LineResult × Connection)
  | 0, _, _ => []
  | n + 1, d, conn =>
    let (result, d, conn) := d.next false conn
    (result, conn) :: requests n d conn

/-- The lines of events, each with the connection as it is then. -/
def trace (conn : Connection) : List Event → List (LineResult × Connection)
  | [] => []
  | .asked sql rows :: es => trace (conn.used [sql] rows) es
  | .line text rows :: es => (.line text, conn.used [] rows) :: trace (conn.used [] rows) es

theorem insertions_none (table : String) : insertions table none = Seq.nil :=
  Seq.corec_nil _ _ rfl

theorem insertions_some (table : String) (cells : Row) (rows : Rows) :
    insertions table (some (cells, rows)) =
      Seq.cons (.line (Line.row table cells).text (ahead rows.next?))
        (insertions table rows.next?) :=
  Seq.corec_cons rfl

theorem ahead_le_one (held : Option (Row × Rows)) : ahead held ≤ 1 := by
  cases held <;> simp [ahead]

/-- **The dump is one row ahead** of the lines it has handed over. -/
theorem fetched_insertions_le (table : String) (held : Option (Row × Rows)) (k : Nat) :
    ahead held + (((insertions table held).take k).map Event.rows).sum ≤ k + 1 := by
  suffices hsum : ∀ held : Option (Row × Rows),
      (((insertions table held).take k).map Event.rows).sum ≤ k by
    have hone := ahead_le_one held
    have hk := hsum held
    omega
  clear held
  induction k with
  | zero => simp
  | succ k ih =>
    intro held
    cases held with
    | none => simp [insertions_none]
    | some p =>
      have hone := ahead_le_one p.2.next?
      have hk := ih p.2.next?
      rw [insertions_some, Seq.take_succ_cons, List.map_cons, List.sum_cons]
      change ahead p.2.next? + _ ≤ k + 1
      omega

end Dump

/-! ## Rows on their way -/

namespace Batch

/-- The row that a batch has fetched for its consumer, and the rows behind it. -/
def held? (b : Batch) : Option (Row × Rows) :=
  match b.stage with
  | .streaming cells rows _ => some (cells, rows)
  | .idle | .offering _ _ | .failing _ | .refused _ | .ended => none

/-- Whether no error stands behind the rows of the current result set. -/
def Fluent (b : Batch) : Prop :=
  match b.stage with
  | .streaming _ _ rest => rest.error? = none
  | .failing _ => False
  | .idle | .offering _ _ | .refused _ | .ended => True

theorem held?_of_not_isReading {b : Batch} (h : b.stage.isReading = false) : b.held? = none := by
  unfold held?
  cases hs : b.stage <;> simp_all [Stage.isReading]

theorem fluent_of_not_isReading {b : Batch} (h : b.stage.isReading = false) : b.Fluent := by
  unfold Fluent
  cases hs : b.stage <;> simp_all [Stage.isReading]

theorem held?_abandon (b : Batch) : b.abandon.held? = b.held? := by
  unfold abandon held?
  cases b.stage <;> rfl

theorem Fluent.abandon {b : Batch} (h : b.Fluent) : b.abandon.Fluent := by
  unfold Fluent at h ⊢
  cases hs : b.stage <;> simp_all [Batch.abandon]

/-- A row more is fetched, if there is one. -/
theorem fetch_fluent (b : Batch) (rows : Rows) {rest : Remainder} (hrest : rest.error? = none) :
    ∃ b₁, b₁.held? = rows.next? ∧ b₁.Fluent ∧
      ∀ conn, b.fetch false rows rest conn = (b₁, conn.used [] (Dump.ahead rows.next?)) := by
  unfold fetch
  cases rows.next? with
  | some p =>
    exact ⟨{ b with stage := .streaming p.1 p.2 rest }, rfl, hrest,
      fun conn => by simp [Connection.used, Dump.ahead]⟩
  | none =>
    have hsettled : (Stage.settle false b.abandoned rest).isReading = false := by
      obtain ⟨sets, failure⟩ := rest
      cases sets with
      | cons set sets => cases b.abandoned <;> rfl
      | nil =>
        cases failure with
        | some message => cases hrest
        | none => cases b.abandoned <;> rfl
    refine ⟨{ b with stage := .settle false b.abandoned rest }, ?_, ?_,
      fun conn => congrArg (_, ·) conn.used_nil.symm⟩
    · exact held?_of_not_isReading hsettled
    · exact fluent_of_not_isReading hsettled

/-- The row that is held is handed over, and the next one fetched. -/
theorem row_of_held {b : Batch} (hb : b.Fluent) {cells : Row} {rows : Rows}
    (h : b.held? = some (cells, rows)) :
    ∃ b₁, b₁.held? = rows.next? ∧ b₁.Fluent ∧
      ∀ conn, b.row false conn = (.row cells, b₁, conn.used [] (Dump.ahead rows.next?)) := by
  unfold held? at h
  unfold Fluent at hb
  cases hs : b.stage with
  | streaming cells' rows' rest =>
    rw [hs] at h hb
    cases h
    obtain ⟨b₁, hheld, hfluent, hfetch⟩ := fetch_fluent b rows hb
    exact ⟨b₁, hheld, hfluent, fun conn => by rw [row, hs, ← hfetch]⟩
  | idle | offering _ _ | failing _ | refused _ | ended =>
    rw [hs] at h
    cases h

theorem row_of_held_none {b : Batch} (hb : b.Fluent) (h : b.held? = none) (conn : Connection) :
    b.row false conn = (.done, b, conn) := by
  unfold held? at h
  unfold Fluent at hb
  cases hs : b.stage with
  | streaming _ _ _ =>
    rw [hs] at h
    cases h
  | failing _ =>
    rw [hs] at hb
    exact hb.elim
  | idle | offering _ _ | refused _ | ended => rw [row, hs]

end Batch

namespace Dump

/-! ## What is still to happen -/

section Remaining

variable (backend : Backend) (replies : Replies)

/-- What is to happen before anything is asked. -/
def pending (d : Dump) : Seq Event :=
  (Seq.ofList (d.ready.map (.line · 0))).append
    (match d.rows with
      | none => Seq.nil
      | some b =>
        (insertions d.table b.held?).append (Seq.ofList (d.attached.map (.line · 0))))

/-- What is to happen from a stage on. -/
def stageEvents (settings : DumpSettings) : Stage → Seq Event
  | .opening => events settings backend replies
  | .tables names => tablesEvents settings backend replies names
  | .closing => Seq.ofList ((closingLines settings).map .ofLine)
  | .done => Seq.nil

/-- **What is still to happen.** -/
def remaining (d : Dump) : Seq Event :=
  d.pending.append (stageEvents backend replies d.settings d.stage)

end Remaining

variable {settings : DumpSettings} {backend : Backend} {replies : Replies} {d : Dump}

/-- A dump that no error awaits. -/
structure Sound (settings : DumpSettings) (replies : Replies) (d : Dump) : Prop where
  settings_eq : d.settings = settings
  rows : ∀ b ∈ d.rows, b.Fluent
  tables : ∀ names, d.stage = .tables names →
    ∀ table ∈ names, table ∈ tableNames settings replies.tables

/-- **The beginning of a table**: two questions, and its rows are on their way. -/
theorem begin_of_answered (h : Answered settings backend replies) {table : String}
    (htable : table ∈ tableNames settings replies.tables) (d : Dump) :
    ∃ b, b.held? = (replies.rows table).next? ∧ b.Fluent ∧
      ∀ conn, conn.backend = backend → conn.broken = false →
        d.begin false table conn =
          (.ok { d with
            ready := (replies.described table).own.toList.map (· ++ ";")
            attached := (replies.described table).attached.map (· ++ ";")
            table, rows := some b },
          [.question backend (Catalog.definitionsQuery table),
            .asked (rowsQuery table) (ahead (replies.rows table).next?)].foldl Event.use conn) := by
  obtain ⟨columns, sets, hrefusal, hsets, hrest⟩ := h.rows table htable
  obtain ⟨b, hheld, hfluent, hfetch⟩ :=
    Batch.fetch_fluent ⟨[], .idle, false⟩ (replies.rows table) hrest
  refine ⟨b.abandon, (b.held?_abandon).trans hheld, hfluent.abandon, ?_⟩
  rintro conn rfl hbroken
  have hsql := verbatim_rowsQuery table
  have hquery := Connection.query_of_answer? hbroken (Catalog.verbatim_definitionsQuery table)
    (h.definitions table htable)
  generalize hconn₁ : conn.used [Catalog.definitionsQuery table]
    (conn.backend.spent (Catalog.definitionsQuery table)) = conn₁ at hquery
  have hbackend₁ : conn₁.backend = conn.backend := by rw [← hconn₁]; rfl
  have hstart :
      Batch.start [Statement.ofText (rowsQuery table)] conn₁ = ⟨[rowsQuery table], .idle, false⟩ := by
    have hbroken₁ : conn₁.broken = false := by rw [← hconn₁]; exact hbroken
    simp [Batch.start, hsql.isBlank, hsql.sql, hbroken₁]
  rw [← hbackend₁] at hrefusal hsets
  have hnext : (⟨[rowsQuery table], .idle, false⟩ : Batch).next false conn₁ =
      (.columns columns, b, conn₁.used [rowsQuery table] (ahead (replies.rows table).next?)) := by
    rw [Batch.next_idle rfl, Batch.advance_set hrefusal hsets, hbackend₁, hfetch,
      Connection.logged_eq_used, Connection.used_used, Nat.zero_add, List.append_nil]
  simp only [begin, Connection.tableDefinitions, Connection.ask, hquery, hstart, hnext]
  rw [← hconn₁]
  rfl

/-! ## What happens first -/

/-- **What is to happen first**: a line, questions, or nothing at all. -/
inductive Goes (settings : DumpSettings) (backend : Backend) (replies : Replies) (d : Dump) : Prop
  | line (text : String) (n : Nat) (d' : Dump)
      (hfirst : remaining backend replies d =
        Seq.cons (.line text n) (remaining backend replies d'))
      (hsound : Sound settings replies d')
      (hnext : ∀ conn, conn.backend = backend → conn.broken = false →
        d.next false conn = (.line text, d', conn.used [] n))
  | ask (es : List Event) (d' : Dump) (hne : es ≠ []) (hasked : ∀ e ∈ es, e.text? = none)
      (hfirst : remaining backend replies d =
        (Seq.ofList es).append (remaining backend replies d'))
      (hsound : Sound settings replies d')
      (hnext : ∀ conn, conn.backend = backend → conn.broken = false →
        d.next false conn = d'.next false (es.foldl Event.use conn))
  | done (d' : Dump) (hfirst : remaining backend replies d = Seq.nil)
      (hsound : Sound settings replies d') (hlast : remaining backend replies d' = Seq.nil)
      (hnext : ∀ conn, conn.backend = backend → conn.broken = false →
        d.next false conn = (.done, d', conn))

/-- Only what is still to happen and the next answer count. -/
theorem Goes.congr {d₀ : Dump} (h : Goes settings backend replies d₀)
    (hremaining : remaining backend replies d = remaining backend replies d₀)
    (hnext : ∀ conn, d.next false conn = d₀.next false conn) : Goes settings backend replies d := by
  cases h with
  | line text n d' hfirst hsound h =>
    exact .line text n d' (hremaining.trans hfirst) hsound
      fun conn hb hc => (hnext conn).trans (h conn hb hc)
  | ask es d' hne hasked hfirst hsound h =>
    exact .ask es d' hne hasked (hremaining.trans hfirst) hsound
      fun conn hb hc => (hnext conn).trans (h conn hb hc)
  | done d' hfirst hsound hlast h =>
    exact .done d' (hremaining.trans hfirst) hsound hlast
      fun conn hb hc => (hnext conn).trans (h conn hb hc)

/-- A line that is ready is handed over first. -/
theorem goes_of_ready (hd : Sound settings replies d) {text : String} {ready : List String}
    (hready : d.ready = text :: ready) : Goes settings backend replies d := by
  obtain ⟨settings', stage, _, rows, table, attached⟩ := d
  obtain rfl : _ = text :: ready := hready
  refine .line text 0 ⟨settings', stage, ready, rows, table, attached⟩ ?_
    ⟨hd.settings_eq, hd.rows, hd.tables⟩ ?_
  · simp [remaining, pending, Seq.append_assoc]
  · intro conn _ _
    rw [conn.used_nil]
    rfl

/-- The rows on their way come next, and the lines behind them. -/
theorem goes_of_rows (hd : Sound settings replies d) (hready : d.ready = []) {b : Batch}
    (hrows : d.rows = some b)
    (hbehind : Goes settings backend replies { d with rows := none }) :
    Goes settings backend replies d := by
  obtain ⟨settings', stage, _, _, table, attached⟩ := d
  obtain rfl : _ = [] := hready
  obtain rfl : _ = some b := hrows
  have hb : b.Fluent := hd.rows b rfl
  cases hheld : b.held? with
  | some p =>
    obtain ⟨cells, rows⟩ := p
    obtain ⟨b₁, hheld₁, hb₁, hrow⟩ := Batch.row_of_held hb hheld
    refine .line (Line.row table cells).text (ahead rows.next?)
      ⟨settings', stage, [], some b₁, table, attached⟩ ?_
      ⟨hd.settings_eq, ?_, hd.tables⟩ ?_
    · simp [remaining, pending, hheld, hheld₁, insertions_some, Seq.append_assoc]
    · rintro _ ⟨⟩
      exact hb₁
    · intro conn _ _
      simp only [next, emit?, hrow, Line.text_row]
  | none =>
    -- Behind the last row come the lines attached to the table, and then what the stage has.
    have hrow := Batch.row_of_held_none hb hheld
    cases attached with
    | cons text attached =>
      refine .line text 0 ⟨settings', stage, attached, none, table, []⟩ ?_
        ⟨hd.settings_eq, by simp, hd.tables⟩ ?_
      · simp [remaining, pending, hheld, insertions_none]
      · intro conn _ _
        simp only [next, emit?, hrow, conn.used_nil]
    | nil =>
      refine hbehind.congr ?_ fun conn => ?_
      · simp [remaining, pending, hheld, insertions_none]
      · simp only [next, emit?, hrow]

/-! With no line ready and no rows on their way, the stage decides. -/

section Stages

variable (table : String) (attached : List String)

theorem remaining_stage (stage : Stage) :
    remaining backend replies { settings, stage, table, attached } =
      stageEvents backend replies settings stage := by
  simp [remaining, pending]

theorem goes_done : Goes settings backend replies { settings, stage := .done, table, attached } := by
  have hsound : Sound settings replies { settings, stage := .done, table, attached } :=
    ⟨rfl, by simp, fun _ h => nomatch h⟩
  exact .done _ (remaining_stage _ _ _) hsound (remaining_stage _ _ _) fun _ _ _ => rfl

theorem goes_closing :
    Goes settings backend replies { settings, stage := .closing, table, attached } := by
  have hsound : Sound settings replies { settings, stage := .done, table, attached } :=
    ⟨rfl, by simp, fun _ h => nomatch h⟩
  have hlast : remaining backend replies { settings, stage := .done, table, attached } = Seq.nil :=
    remaining_stage _ _ _
  cases htransaction : settings.transaction with
  | true =>
    refine .line "COMMIT;" 0 _ ?_ hsound fun conn _ _ => ?_
    · rw [remaining_stage, hlast, stageEvents, closingLines, if_pos htransaction]
      exact Seq.ofList_cons _ _
    · rw [conn.used_nil]
      simp only [next, emit?, close, htransaction, if_true]
  | false =>
    refine .done _ ?_ hsound hlast fun conn _ _ => ?_
    · rw [remaining_stage, stageEvents, closingLines, if_neg (by simp [htransaction])]
      rfl
    · simp only [next, emit?, close, htransaction, Bool.false_eq_true, if_false]

theorem map_ofLine_definition (definitions : List String) :
    definitions.map (Event.ofLine <| .definition ·) =
      (definitions.map (· ++ ";")).map (.line · 0) := by
  rw [List.map_map]
  rfl

/-- Behind the last table the views are asked for. -/
theorem goes_tables_nil (h : Answered settings backend replies) :
    Goes settings backend replies { settings, stage := .tables [], table, attached } := by
  cases hviews : settings.includeViews with
  | true =>
    refine .ask [.question backend Catalog.viewsQuery]
      { settings, stage := .closing, table, attached
        ready := (Catalog.firsts replies.views).map (· ++ ";") }
      (List.cons_ne_nil _ _) (by simp [Event.question, Event.text?]) ?_
      ⟨rfl, by simp, fun _ h => nomatch h⟩ ?_
    · rw [remaining_stage, stageEvents, tablesEvents, viewEvents, if_pos hviews,
        map_ofLine_definition]
      simp [remaining, pending, stageEvents, Seq.ofList_append]
    · rintro conn rfl hbroken
      have hquery := Connection.query_of_answer? hbroken Catalog.verbatim_viewsQuery
        (h.views hviews)
      change leaveTables _ conn = _
      simp only [leaveTables, hviews, if_true, Connection.views, Connection.ask, hquery]
      cases Catalog.firsts replies.views <;> rfl
  | false =>
    refine (goes_closing table attached).congr ?_ fun conn => ?_
    · rw [remaining_stage, remaining_stage, stageEvents, tablesEvents, viewEvents,
        if_neg (by simp [hviews])]
      rfl
    · change leaveTables _ conn = _
      rw [leaveTables, if_neg (by simp [hviews])]
      rfl

/-- Each table begins with two questions. -/
theorem goes_tables_cons (h : Answered settings backend replies) {name : String}
    {names : List String}
    (hnames : ∀ name' ∈ name :: names, name' ∈ tableNames settings replies.tables) :
    Goes settings backend replies { settings, stage := .tables (name :: names), table, attached } := by
  obtain ⟨hname, hnames⟩ := List.forall_mem_cons.mp hnames
  obtain ⟨b, hheld, hb, hbegin⟩ := begin_of_answered h hname
    { settings, stage := .tables (name :: names), table, attached }
  refine .ask [.question backend (Catalog.definitionsQuery name),
      .asked (rowsQuery name) (ahead (replies.rows name).next?)]
    { settings, stage := .tables names, table := name, rows := some b
      ready := (replies.described name).own.toList.map (· ++ ";")
      attached := (replies.described name).attached.map (· ++ ";") }
    (List.cons_ne_nil _ _) (by simp [Event.question, Event.text?]) ?_ ⟨rfl, ?_, ?_⟩ ?_
  · rw [remaining_stage, stageEvents, tablesEvents, tableEvents, map_ofLine_definition,
      map_ofLine_definition]
    simp [remaining, pending, stageEvents, hheld, Seq.append_assoc]
  · rintro _ ⟨⟩
    exact hb
  · rintro _ ⟨⟩
    exact hnames
  · intro conn hbackend hbroken
    have hconn := hbegin conn hbackend hbroken
    change fromTables false _ (name :: names) conn = _
    generalize List.foldl Event.use conn _ = conn₁ at hconn ⊢
    -- Whether the table has a line or not, the request goes on as one for the rest would.
    rw [fromTables, hconn, next]
    obtain ⟨text, d', conn', hemit, -⟩ | ⟨e, conn', hemit, -⟩ | ⟨conn', hemit, -⟩ :=
      emit?_cases false { settings, stage := .tables names, table := name, rows := some b
                          ready := (replies.described name).own.toList.map (· ++ ";")
                          attached := (replies.described name).attached.map (· ++ ";") } conn₁ <;>
      simp only [hemit]

theorem goes_opening (h : Answered settings backend replies) :
    Goes settings backend replies { settings, stage := .opening, table, attached } := by
  refine .ask [.question backend Catalog.tablesQuery]
    { settings, stage := .tables (tableNames settings replies.tables), table, attached
      ready := (openingLines settings).map Line.text }
    (List.cons_ne_nil _ _) (by simp [Event.question, Event.text?]) ?_ ⟨rfl, by simp, ?_⟩ ?_
  · have hlines : (openingLines settings).map Event.ofLine =
        ((openingLines settings).map Line.text).map (.line · 0) := by
      rw [List.map_map]
      rfl
    rw [remaining_stage, stageEvents, events, hlines]
    simp [remaining, pending, stageEvents]
  · rintro _ ⟨⟩ name hname
    exact hname
  · rintro conn rfl hbroken
    have hquery := Connection.query_of_answer? hbroken Catalog.verbatim_tablesQuery h.tables
    change fromOpening _ conn = _
    simp only [fromOpening, Connection.tables, Connection.ask, hquery, map_text_openingLines]
    rfl

end Stages

/-- **What happens next** in a dump whose questions are all answered. -/
theorem Sound.goes (hd : Sound settings replies d) (h : Answered settings backend replies) :
    Goes settings backend replies d := by
  cases hready : d.ready with
  | cons text ready => exact goes_of_ready hd hready
  | nil =>
    have hstages : Goes settings backend replies { d with rows := none } := by
      obtain ⟨_, stage, _, rows, table, attached⟩ := d
      obtain rfl : _ = settings := hd.settings_eq
      obtain rfl : _ = [] := hready
      cases stage with
      | opening => exact goes_opening table attached h
      | closing => exact goes_closing table attached
      | done => exact goes_done table attached
      | tables names =>
        cases names with
        | nil => exact goes_tables_nil table attached h
        | cons name names => exact goes_tables_cons table attached h (hd.tables _ rfl)
    cases hrows : d.rows with
    | some b => exact goes_of_rows hd hready hrows hstages
    | none =>
      obtain ⟨_, stage, _, _, table, attached⟩ := d
      obtain rfl : _ = none := hrows
      exact hstages

/-! ## All requests -/

theorem requests_congr {d d' : Dump} {conn conn' : Connection}
    (h : d.next false conn = d'.next false conn') (n : Nat) :
    requests n d conn = requests n d' conn' := by
  cases n with
  | zero => rfl
  | succ n => rw [requests, requests, h]

/-- The lines of events. -/
def texts (es : List Event) : List String := es.filterMap Event.text?

theorem trace_append (conn : Connection) (a b : List Event) :
    trace conn (a ++ b) = trace conn a ++ trace (a.foldl Event.use conn) b := by
  induction a generalizing conn with
  | nil => rfl
  | cons e a ih =>
    cases e with
    | asked sql rows => exact ih (conn.used [sql] rows)
    | line text rows =>
      exact congrArg ((.line text, conn.used [] rows) :: ·) (ih (conn.used [] rows))

theorem trace_of_asked {es : List Event} (h : ∀ e ∈ es, e.text? = none) (conn : Connection) :
    trace conn es = [] := by
  induction es generalizing conn with
  | nil => rfl
  | cons e es ih =>
    obtain ⟨he, hes⟩ := List.forall_mem_cons.mp h
    cases e with
    | asked sql rows => exact ih hes (conn.used [sql] rows)
    | line text rows => cases he

theorem texts_of_asked {es : List Event} (h : ∀ e ∈ es, e.text? = none) : texts es = [] :=
  List.filterMap_eq_nil_iff.mpr h

theorem foldl_use_alike (conn : Connection) (es : List Event) :
    (es.foldl Event.use conn).Alike conn := by
  induction es generalizing conn with
  | nil => exact .refl conn
  | cons e es ih => exact (ih (Event.use conn e)).trans (.used conn _ _)

/-- Of two beginnings of a sequence one is a beginning of the other. -/
theorem append_eq_append {α : Type} {a b : List α} {s t : Seq α}
    (h : (Seq.ofList a).append s = (Seq.ofList b).append t) :
    (∃ c, b = a ++ c ∧ s = (Seq.ofList c).append t) ∨
      ∃ c, c ≠ [] ∧ a = b ++ c ∧ t = (Seq.ofList c).append s := by
  induction a generalizing b with
  | nil => exact Or.inl ⟨b, rfl, by simpa using h⟩
  | cons x a ih =>
    cases b with
    | nil => exact Or.inr ⟨x :: a, List.cons_ne_nil x a, rfl, by simpa using h.symm⟩
    | cons y b =>
      simp only [Seq.ofList_cons, Seq.cons_append, Seq.cons_eq_cons] at h
      obtain ⟨rfl, h⟩ := h
      obtain ⟨c, rfl, hs⟩ | ⟨c, hne, rfl, ht⟩ := ih h
      · exact Or.inl ⟨c, rfl, hs⟩
      · exact Or.inr ⟨c, hne, rfl, ht⟩

/-- Where nothing is to happen a dump is at its end, and stays there. -/
theorem requests_of_nil (h : Answered settings backend replies) (hd : Sound settings replies d)
    (hnil : remaining backend replies d = Seq.nil) {conn : Connection}
    (hbackend : conn.backend = backend) (hbroken : conn.broken = false) (m : Nat) :
    requests m d conn = List.replicate m (.done, conn) := by
  induction m generalizing d with
  | zero => rfl
  | succ m ih =>
    cases hd.goes h with
    | line _ _ _ hfirst _ _ => exact absurd (hnil.symm.trans hfirst) Seq.nil_ne_cons
    | ask es _ hne _ hfirst _ _ =>
      obtain ⟨e, es, rfl⟩ := List.exists_cons_of_ne_nil hne
      rw [Seq.ofList_cons, Seq.cons_append] at hfirst
      exact absurd (hnil.symm.trans hfirst) Seq.nil_ne_cons
    | done _ _ hsound hlast hnext =>
      rw [requests, hnext conn hbackend hbroken, List.replicate_succ]
      exact congrArg _ (ih hsound hlast)

/-- **Requests for lines** are answered with the lines that are to come, in time. -/
theorem requests_remaining (h : Answered settings backend replies)
    (hd : Sound settings replies d) {es : List Event} {rest : Seq Event}
    (hes : remaining backend replies d = (Seq.ofList es).append rest) {conn : Connection}
    (hbackend : conn.backend = backend) (hbroken : conn.broken = false) {m : Nat}
    (hm : m = 0 ∨ rest = Seq.nil) :
    requests ((texts es).length + m) d conn =
      trace conn es ++ List.replicate m (.done, es.foldl Event.use conn) := by
  -- On the number of events: questions are no request of their own, so a request takes several.
  induction hn : es.length using Nat.strongRecOn generalizing d es conn with
  | _ n ih =>
    cases hd.goes h with
    | line text rows d' hfirst hsound hnext =>
      cases es with
      | nil =>
        rcases hm with rfl | rfl
        · rfl
        · exact absurd (hes.symm.trans hfirst) (by simp)
      | cons e es =>
        rw [hfirst, Seq.ofList_cons, Seq.cons_append, Seq.cons_eq_cons] at hes
        obtain ⟨rfl, hes⟩ := hes
        have hlength : (texts (.line text rows :: es)).length + m = (texts es).length + m + 1 := by
          simp [texts, Event.text?]
          omega
        have hbackend' : (conn.used [] rows).backend = backend := hbackend
        rw [hlength, requests, hnext conn hbackend hbroken]
        exact congrArg ((.line text, conn.used [] rows) :: ·)
          (ih es.length (by simp [← hn]) hsound hes hbackend' hbroken rfl)
    | ask asked d' hne hasked hfirst hsound hnext =>
      -- The questions are asked by the request for the line behind them.
      obtain ⟨c, rfl, hc⟩ | ⟨c, hc, rfl, hrest⟩ := append_eq_append (hfirst.symm.trans hes)
      · have halike := foldl_use_alike conn asked
        have htexts : texts (asked ++ c) = texts c := by
          rw [texts, List.filterMap_append, ← texts, texts_of_asked hasked, List.nil_append]
          rfl
        rw [requests_congr (hnext conn hbackend hbroken), htexts, trace_append,
          trace_of_asked hasked, List.nil_append, List.foldl_append]
        have hlt : c.length < n := by
          have := List.length_pos_iff.mpr hne
          rw [← hn, List.length_append]
          omega
        exact ih c.length hlt hsound hc (halike.backend.trans hbackend)
          (halike.broken.trans hbroken) rfl
      · -- The events stop in the middle of the questions.
        have hes : ∀ e ∈ es, e.text? = none := fun e he =>
          hasked e (List.mem_append_left c he)
        rcases hm with rfl | rfl
        · rw [texts_of_asked hes, trace_of_asked hes]
          rfl
        · obtain ⟨e, c, rfl⟩ := List.exists_cons_of_ne_nil hc
          exact absurd hrest (by simp)
    | done _ hfirst hsound hlast hnext =>
      cases es with
      | nil =>
        rw [texts, List.filterMap_nil, List.length_nil, Nat.zero_add]
        exact requests_of_nil h hd hfirst hbackend hbroken m
      | cons e es => exact absurd (hfirst.symm.trans hes) (by simp)

/-- **A dump is its reference script, lazily.** If all its questions are answered, the lines that
are requested are those of `events`, and each time exactly what stands in front of the line was
asked; where the events have an end, the dump has too. Behind any number of lines of rows at most one
row more was fetched. -/
theorem requests_eq_trace {settings : DumpSettings} {replies : Replies} {conn : Connection}
    (h : Answered settings conn.backend replies) (hbroken : conn.broken = false) :
    (∀ es rest, events settings conn.backend replies = (Seq.ofList es).append rest →
      requests (texts es).length { settings } conn = trace conn es) ∧
    (∀ es, events settings conn.backend replies = Seq.ofList es → ∀ m,
      requests ((texts es).length + m) { settings } conn =
        trace conn es ++ List.replicate m (.done, es.foldl Event.use conn)) ∧
    ∀ table k, ahead (replies.rows table).next? +
      (((insertions table (replies.rows table).next?).take k).map Event.rows).sum ≤ k + 1 := by
  have hsound : Sound settings replies { settings } := ⟨rfl, by simp, fun _ h => nomatch h⟩
  have hremaining : remaining conn.backend replies { settings } =
      events settings conn.backend replies := remaining_stage "" [] .opening
  refine ⟨fun es rest hes => ?_, fun es hes m => ?_, fun table k => fetched_insertions_le table _ k⟩
  · have hall := requests_remaining h hsound (hremaining.trans hes) rfl hbroken (Or.inl rfl)
    simpa using hall
  · have hnil : remaining conn.backend replies { settings } = (Seq.ofList es).append Seq.nil := by
      rw [hremaining, hes, Seq.append_nil]
    exact requests_remaining h hsound hnil rfl hbroken (Or.inr rfl)

/-- A table with an index. -/
def indexed : List Catalog.Entry :=
  [⟨.table, "t", "t", some "CREATE TABLE t(a)"⟩, ⟨.index, "i", "t", some "CREATE INDEX i ON t(a)"⟩]

/-- A database that holds the table with two rows. -/
def indexedDatabase : Connection :=
  { backend := Catalog.serve indexed fun _ => [[.text "x"], [.null]] }

/-- Its answers. -/
def indexedReplies : Replies where
  tables := [[.text "t"]]
  definitions _ := [[.text "table", .text "CREATE TABLE t(a)"],
    [.text "index", .text "CREATE INDEX i ON t(a)"]]
  rows _ := .finite [[.text "x"], [.null]]
  views := []

/-- What happens while it is dumped. -/
def indexedEvents : List Event :=
  [.question indexedDatabase.backend Catalog.tablesQuery, .ofLine .foreignKeys,
    .ofLine .beginTransaction, .question indexedDatabase.backend (Catalog.definitionsQuery "t"),
    .asked (rowsQuery "t") 1, .ofLine (.definition "CREATE TABLE t(a)"),
    .line (Line.row "t" [.text "x"]).text 1, .line (Line.row "t" [.null]).text 0,
    .ofLine (.definition "CREATE INDEX i ON t(a)"),
    .question indexedDatabase.backend Catalog.viewsQuery, .ofLine .commit]

theorem tableNames_indexed : tableNames {} indexedReplies.tables = ["t"] := by decide

theorem answered_indexed : Answered {} indexedDatabase.backend indexedReplies := by
  have hone (table : String) (h : table ∈ tableNames {} indexedReplies.tables) : table = "t" := by
    rw [tableNames_indexed] at h
    exact List.mem_singleton.mp h
  refine ⟨?_, fun table h => ?_, fun table h => ?_, fun _ => ?_⟩
  · refine Catalog.answer?_of_yields Catalog.verbatim_tablesQuery ?_
    have horder : Catalog.inOrder (Catalog.ofKind .table indexed) =
        Catalog.ofKind .table indexed := List.mergeSort_singleton _
    have hreply := Catalog.serve_tablesQuery indexed fun _ => [[.text "x"], [.null]]
    rw [horder] at hreply
    exact ⟨["name"], hreply⟩
  · obtain rfl := hone table h
    exact Catalog.answer?_of_yields (Catalog.verbatim_definitionsQuery "t")
      (Catalog.yields_definitionsQuery indexed (fun _ => [[.text "x"], [.null]]) "t")
  · obtain rfl := hone table h
    have htable : (⟨.table, "t", "t", some "CREATE TABLE t(a)"⟩ : Catalog.Entry) ∈ indexed :=
      List.mem_cons_self
    obtain ⟨columns, hreply⟩ :=
      Catalog.yields_rowsQuery indexed (fun _ => [[.text "x"], [.null]]) htable
    change indexedDatabase.backend (rowsQuery "t") = _ at hreply
    exact ⟨columns, [], by rw [hreply], by rw [hreply]; rfl, by rw [hreply]; rfl⟩
  · refine Catalog.answer?_of_yields Catalog.verbatim_viewsQuery ?_
    have horder : Catalog.inOrder (Catalog.definedViews indexed) = [] := List.mergeSort_nil
    have hreply := Catalog.serve_viewsQuery indexed fun _ => [[.text "x"], [.null]]
    rw [horder] at hreply
    exact ⟨["sql"], hreply⟩

theorem events_indexed :
    events {} indexedDatabase.backend indexedReplies = Seq.ofList indexedEvents := by
  have hown : (indexedReplies.described "t").own = some "CREATE TABLE t(a)" := by decide
  have hattached : (indexedReplies.described "t").attached = ["CREATE INDEX i ON t(a)"] := by
    decide
  have hfirst : (indexedReplies.rows "t").next? = some ([.text "x"], .finite [[.null]]) := rfl
  have hsecond : (Rows.finite [[.null]]).next? = some ([.null], .finite []) := rfl
  have hend : (Rows.finite []).next? = none := rfl
  have hviews : viewEvents {} indexedDatabase.backend indexedReplies =
      [.question indexedDatabase.backend Catalog.viewsQuery, .ofLine .commit] := rfl
  rw [events, tableNames_indexed, tablesEvents, tablesEvents, tableEvents, hown, hattached, hfirst,
    hviews, insertions_some, hsecond, insertions_some, hend, insertions_none]
  simp [indexedEvents, openingLines, ahead]

/-- The second row is fetched with the line of the first one, the views are asked for with the last
line, and behind it there is nothing. -/
theorem requests_indexed :
    requests 9 { settings := {} } indexedDatabase =
      trace indexedDatabase indexedEvents ++
        List.replicate 2 (.done, indexedEvents.foldl Event.use indexedDatabase) :=
  (requests_eq_trace answered_indexed rfl).2.1 indexedEvents events_indexed 2

end Dump

end SqlConsole
