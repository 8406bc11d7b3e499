import SqlConsole.Proofs.Batch.Handout
import SqlConsole.Proofs.Dump.Script

/-!
# What a dump is handed

A dump is handed the answers to its questions and, for each table, the first result set of the query
for its rows, of which it takes a row for each line. So it pays like any other reader (`pays_next`):
there is at most one row fetched that is in no line.
-/

namespace SqlConsole

theorem Connection.pays_ask {α : Type} (conn : Connection) (sql : String) (read : List Row → α)
    (stage : Stage) :
    Pays (stage, conn) (conn.queryHandouts sql) (.ended, (conn.ask sql read).2) := by
  have hquery := conn.pays_query sql stage
  rw [ask]
  generalize conn.query sql = answer at hquery ⊢
  obtain ⟨_ | _, conn'⟩ := answer <;> exact hquery

namespace Dump

/-- The stage of the query whose rows a dump is reading. -/
def reading (d : Dump) : SqlConsole.Stage := (d.rows.map (·.stage)).getD .ended

/-- What a dump is handed for a line that needs no new question. -/
def emitHandouts (d : Dump) (conn : Connection) : List Handout :=
  match d.ready, d.rows with
  | [], some b => Batch.rowHandouts (b.row false conn).1
  | _ :: _, _ | [], none => []

/-- What a dump is handed at the beginning of a table. -/
def beginHandouts (table : String) (conn : Connection) : List Handout :=
  conn.queryHandouts (Catalog.definitionsQuery table) ++
    match conn.tableDefinitions table with
    | (.error _, _) => []
    | (.ok _, conn) => (Batch.start [Statement.ofText (rowsQuery table)] conn).nextHandouts conn

/-- What a dump is handed behind the tables. -/
def leaveHandouts (d : Dump) (conn : Connection) : List Handout :=
  if d.settings.includeViews then conn.queryHandouts Catalog.viewsQuery else []

/-- What a dump is handed up to the first line of the next table that has one. -/
def tablesHandouts (d : Dump) : List String → Connection → List Handout
  | [], conn => d.leaveHandouts conn
  | table :: tables, conn =>
    beginHandouts table conn ++
      match d.begin false table conn with
      | (.error _, _) => []
      | (.ok d, conn) =>
        let d := { d with stage := .tables tables }
        d.emitHandouts conn ++
          match d.emit? false conn with
          | (some _, _, _) => []
          | (none, d, conn) => tablesHandouts d tables conn

/-- What a dump is handed for the next line. -/
def nextHandouts (d : Dump) (conn : Connection) : List Handout :=
  d.emitHandouts conn ++
    match d.emit? false conn with
    | (some _, _, _) => []
    | (none, d, conn) =>
      match d.stage with
      | .opening => conn.queryHandouts Catalog.tablesQuery
      | .tables names => d.tablesHandouts names conn
      | .closing | .done => []

/-- What a dump is handed for all its lines. -/
def linesHandouts : Nat → Dump → Connection → List Handout
  | 0, _, _ => []
  | fuel + 1, d, conn =>
    d.nextHandouts conn ++
      match d.next false conn with
      | (.line _, d, conn) => linesHandouts fuel d conn
      | (.error _, _, _) | (.done, _, _) => []

/-- What a dump is handed for the lines that are written. -/
def writeHandouts : Nat → Dump → Connection → Sink → List Handout
  | 0, _, _, _ => []
  | fuel + 1, d, conn, sink =>
    d.nextHandouts conn ++
      match d.next false conn with
      | (.line text, d, conn) =>
        match sink.putAll [.line text] with
        | (none, sink) => writeHandouts fuel d conn sink
        | (some _, _) => []
      | (.error _, _, _) | (.done, _, _) => []

variable (d : Dump) (conn : Connection)

theorem pays_emit? :
    Pays (d.reading, conn) (d.emitHandouts conn)
      ((d.emit? false conn).2.1.reading, (d.emit? false conn).2.2) := by
  obtain ⟨settings, stage, ready, rows, table, attached⟩ := d
  cases ready with
  | cons line ready => exact Pays.refl _
  | nil =>
    cases rows with
    | none => exact Pays.refl _
    | some b =>
      have hrow := Batch.pays_row b conn
      simp only [emit?, emitHandouts]
      generalize b.row false conn = first at hrow ⊢
      obtain ⟨result, b₁, conn₁⟩ := first
      cases result with
      | row cells => exact hrow
      | error e => exact hrow.leave rfl
      | done => cases attached <;> exact hrow.leave rfl

/-- A dump that has to ask has no rows to read. -/
theorem rows_of_emit?_none (h : (d.emit? false conn).1 = none) :
    (d.emit? false conn).2.1.rows = none := by
  obtain ⟨text, d₁, conn₁, hemit, -⟩ | ⟨e, conn₁, hemit, -⟩ | ⟨conn₁, hemit, -⟩ :=
    emit?_cases false d conn <;> rw [hemit] at h ⊢
  · cases h
  · cases h

/-- What is begun for a table is read behind the answer to the question for its definitions. -/
theorem pays_begin (hrows : d.rows = none) (stage : SqlConsole.Stage) (table : String) :
    Pays (stage, conn) (beginHandouts table conn)
      (((d.begin false table conn).1.toOption.map reading).getD .ended,
        (d.begin false table conn).2) := by
  have hasked : Pays (stage, conn) (conn.queryHandouts (Catalog.definitionsQuery table))
      (.ended, (conn.tableDefinitions table).2) := conn.pays_ask _ _ stage
  rw [begin, beginHandouts]
  refine hasked.trans ?_
  generalize conn.tableDefinitions table = answer
  obtain ⟨_ | definitions, conn₁⟩ := answer
  case error => exact Pays.refl _
  case ok =>
    have hnext := (Batch.start [Statement.ofText (rowsQuery table)] conn₁).pays_next conn₁ .ended
    simp only
    generalize Batch.next false _ conn₁ = first at hnext ⊢
    obtain ⟨result, b, conn₂⟩ := first
    cases result with
    | error e => exact hnext.leave rfl
    | done => exact hnext.leave (by simp [Except.toOption, reading, hrows, Stage.rowsLeft])
    | columns columns =>
      have hkept := hnext.trans (Batch.pays_abandon b conn₂)
      rwa [List.append_nil] at hkept

/-- A line of its own, or none, costs nothing. -/
theorem pays_close (stage : SqlConsole.Stage) (hrows : d.rows = none) :
    Pays (stage, conn) [] ((d.close conn).2.1.reading, (d.close conn).2.2) := by
  rw [close]
  split <;> exact (Pays.refl _).leave (by simp [reading, hrows, Stage.rowsLeft])

theorem pays_leaveTables (hrows : d.rows = none) (stage : SqlConsole.Stage) :
    Pays (stage, conn) (d.leaveHandouts conn)
      ((d.leaveTables conn).2.1.reading, (d.leaveTables conn).2.2) := by
  have hasked : Pays (stage, conn) (conn.queryHandouts Catalog.viewsQuery)
      (.ended, conn.views.2) := conn.pays_ask _ _ stage
  rw [leaveTables, leaveHandouts]
  split
  case isFalse => exact d.pays_close conn stage hrows
  case isTrue =>
    generalize conn.views = answer at hasked ⊢
    obtain ⟨_ | _ | ⟨view, views⟩, conn₁⟩ := answer
    · exact hasked
    · have hclosed := hasked.trans (d.pays_close conn₁ .ended hrows)
      rwa [List.append_nil] at hclosed
    · exact hasked.leave (by simp [reading, hrows, Stage.rowsLeft])

theorem pays_fromTables (hrows : d.rows = none) (stage : SqlConsole.Stage) (tables : List String) :
    Pays (stage, conn) (d.tablesHandouts tables conn)
      ((d.fromTables false tables conn).2.1.reading, (d.fromTables false tables conn).2.2) := by
  induction tables generalizing d conn stage with
  | nil => exact d.pays_leaveTables conn hrows stage
  | cons table tables ih =>
    have hbegin := d.pays_begin conn hrows stage table
    rw [fromTables, tablesHandouts]
    refine hbegin.trans ?_
    generalize d.begin false table conn = begun
    obtain ⟨_ | d₁, conn₁⟩ := begun
    case error => exact Pays.refl _
    case ok =>
      have hemit := pays_emit? { d₁ with stage := .tables tables } conn₁
      have hnone := rows_of_emit?_none { d₁ with stage := .tables tables } conn₁
      refine hemit.trans ?_
      simp only
      generalize emit? false { d₁ with stage := .tables tables } conn₁ = first at hnone ⊢
      obtain ⟨_ | result, d₂, conn₂⟩ := first
      · exact ih d₂ conn₂ (hnone rfl) _
      · exact Pays.refl _

theorem pays_fromOpening (hrows : d.rows = none) (stage : SqlConsole.Stage) :
    Pays (stage, conn) (conn.queryHandouts Catalog.tablesQuery)
      ((d.fromOpening conn).2.1.reading, (d.fromOpening conn).2.2) := by
  have hasked : Pays (stage, conn) (conn.queryHandouts Catalog.tablesQuery)
      (.ended, (conn.tables d.settings.exclusions).2) := conn.pays_ask _ _ stage
  rw [fromOpening]
  generalize conn.tables d.settings.exclusions = answer at hasked ⊢
  obtain ⟨_ | names, conn₁⟩ := answer
  · exact hasked
  · exact hasked.leave (by simp [reading, hrows, Stage.rowsLeft])

/-- **A request for a line** takes at most one row more. -/
theorem pays_next :
    Pays (d.reading, conn) (d.nextHandouts conn)
      ((d.next false conn).2.1.reading, (d.next false conn).2.2) := by
  have hemit := d.pays_emit? conn
  have hnone := d.rows_of_emit?_none conn
  rw [next, nextHandouts]
  refine hemit.trans ?_
  generalize d.emit? false conn = first at hnone ⊢
  obtain ⟨_ | result, d₁, conn₁⟩ := first
  case some => exact Pays.refl _
  case none =>
    have hrows : d₁.rows = none := hnone rfl
    simp only
    cases d₁.stage with
    | opening => exact d₁.pays_fromOpening conn₁ hrows _
    | tables names => exact d₁.pays_fromTables conn₁ hrows _ names
    | closing => exact d₁.pays_close conn₁ _ hrows
    | done => exact Pays.refl _

theorem pays_linesWithin (fuel : Nat) :
    Pays (d.reading, conn) (linesHandouts fuel d conn)
      ((linesWithin false fuel d conn).2.2.1.reading, (linesWithin false fuel d conn).2.2.2) := by
  induction fuel generalizing d conn with
  | zero => exact Pays.refl _
  | succ fuel ih =>
    have hnext := d.pays_next conn
    rw [linesWithin, linesHandouts]
    refine hnext.trans ?_
    generalize d.next false conn = first
    obtain ⟨result, d₁, conn₁⟩ := first
    cases result with
    | line text => exact ih d₁ conn₁
    | error e | done => exact Pays.refl _

theorem pays_writeWithin (fuel : Nat) (sink : Sink) :
    Pays (d.reading, conn) (writeHandouts fuel d conn sink)
      (.ended, (writeWithin false fuel d conn sink).2.1) := by
  induction fuel generalizing d conn sink with
  | zero => exact (Pays.refl _).leave rfl
  | succ fuel ih =>
    have hnext := d.pays_next conn
    rw [writeWithin, writeHandouts]
    refine hnext.trans ?_
    generalize d.next false conn = first
    obtain ⟨result, d₁, conn₁⟩ := first
    cases result with
    | error e | done => exact (Pays.refl _).leave rfl
    | line text =>
      simp only
      rcases sink.putAll [.line text] with ⟨_ | e, sink₁⟩
      · exact ih d₁ conn₁ sink₁
      · exact (Pays.refl _).leave rfl

end Dump

end SqlConsole
