import Mathlib.Data.Option.NAry
import SqlConsole.Dump
import SqlConsole.Proofs.Dump.Query

/-!
# The script of a dump

What a dump writes can be said without running it (`Dump.script?`): the setting of the foreign keys
and the start of the transaction, the definitions and rows of one table after the other, the views,
and the end of the transaction. A `Line` says what each line is; its text is its body with a `;`.

A dump that is read to its end without an error has written exactly this script, whatever else the
connection was used for meanwhile and whether or not someone cancelled: a cancellation that came in
time is an error. With a connection that is not broken and nobody cancelling, the script is written
if there is one (`writes_iff`).

Behind both is `Dump.left?`, which says of a dump at any point what is left to be written.
-/

namespace SqlConsole

/-! ## Interference -/

/-- An outcome that is the expected one, or none where something interfered. -/
def Unless {α : Type} (interfered : Prop) (x expected : Option α) : Prop :=
  x = expected ∨ interfered ∧ x = none

namespace Unless

variable {α β : Type} {p q : Prop} {x y : Option α}

theorem refl (x : Option α) : Unless p x x := Or.inl rfl

theorem of_none (hp : p) : Unless p none y := Or.inr ⟨hp, rfl⟩

theorem mono (h : Unless p x y) (hpq : p → q) : Unless q x y :=
  h.imp_right fun hp => ⟨hpq hp.1, hp.2⟩

theorem trans {z : Option α} (h : Unless p x y) (h' : Unless p y z) : Unless p x z := by
  rcases h with rfl | ⟨hp, rfl⟩
  · exact h'
  · exact of_none hp

theorem map (h : Unless p x y) (f : α → β) : Unless p (x.map f) (y.map f) := by
  rcases h with rfl | ⟨hp, rfl⟩
  · exact refl _
  · exact of_none hp

theorem map₂ {γ : Type} (h : Unless p x y) (f : α → β → γ) (z : Option β) :
    Unless p (Option.map₂ f x z) (Option.map₂ f y z) := by
  rcases h with rfl | ⟨hp, rfl⟩
  · exact refl _
  · exact of_none hp

/-- Where there is an outcome it is the expected one. -/
theorem eq_some (h : Unless p x y) {a : α} (hx : x = some a) : y = some a := by
  rcases h with rfl | ⟨-, hnone⟩
  · exact hx
  · rw [hnone] at hx
    cases hx

theorem eq_of_not (h : Unless p x y) (hp : ¬ p) : x = y := h.resolve_right fun h => hp h.1

end Unless

/-! ## Rows -/

/-- All rows, if there is an end to them. -/
def Rows.all? : Rows → Option (List Row)
  | finite rows => some rows
  | cyclic [] => some []
  | cyclic (_ :: _) | counting _ => none

/-- All rows of a result set, if there is an end to them and no error behind them. -/
def Rows.within? (rows : Rows) (rest : Remainder) : Option (List Row) :=
  if rest.error?.isSome then none else rows.all?

theorem Rows.all?_of_next?_none {rows : Rows} (h : rows.next? = none) : rows.all? = some [] := by
  rcases rows with (_ | _) | (_ | _) | _ <;> simp_all [next?, all?]

theorem Rows.all?_of_next?_some {rows rows' : Rows} {row : Row}
    (h : rows.next? = some (row, rows')) : rows.all? = rows'.all?.map (row :: ·) := by
  rcases rows with (_ | ⟨cells, rows⟩) | (_ | ⟨cells, rows⟩) | n
  · simp [next?] at h
  · cases h
    rfl
  · simp [next?] at h
  · -- Rows that come round again are never all.
    cases h
    cases rows <;> rfl
  · cases h
    rfl

/-- The rows of the first result set of a reply, if there is an end to them and no error behind
them; nothing, if the statement has nothing to show. -/
def Reply.firstRows? (reply : Reply) : Option (Option (List Row)) :=
  match reply.refusal, reply.sets, reply.failure with
  | some _, _, _ => none
  | none, [], some _ => none
  | none, [], none => some none
  | none, set :: sets, failure => (set.rows.within? ⟨sets, failure⟩).map some

namespace Batch

/-- The rows that are left of the current result set, if there is an end to them and no error
behind them. -/
def rowsLeft? (b : Batch) : Option (List Row) :=
  match b.stage with
  | .streaming cells rows rest => (rows.within? rest).map (cells :: ·)
  | .failing _ => none
  | .idle | .offering _ _ | .refused _ | .ended => some []

theorem rowsLeft?_abandon (b : Batch) : b.abandon.rowsLeft? = b.rowsLeft? := by
  unfold abandon rowsLeft?
  cases b.stage <;> rfl

/-- What is left of the result set, seen from behind a request for a row. -/
def behindRow? : RowResult × Batch × Connection → Option (List Row)
  | (.row cells, b, _) => b.rowsLeft?.map (cells :: ·)
  | (.error _, _, _) => none
  | (.done, _, _) => some []

/-- The rows of the first result set, seen from behind the request for it. -/
def behindFirst? : NextResult × Batch × Connection → Option (Option (List Row))
  | (.columns _, b, _) => b.rowsLeft?.map some
  | (.error _, _, _) => none
  | (.done, _, _) => some none

variable {cancelled : Bool} {conn : Connection}

theorem rowsLeft?_fetch (cancelled : Bool) (b : Batch) (rows : Rows) (rest : Remainder)
    (conn : Connection) :
    Unless (cancelled = true) (b.fetch cancelled rows rest conn).1.rowsLeft?
      (rows.within? rest) := by
  unfold fetch
  cases hnext : rows.next? with
  | none =>
    left
    obtain ⟨sets, failure⟩ := rest
    rw [Rows.within?, Rows.all?_of_next?_none hnext]
    cases sets with
    | cons set sets => cases cancelled <;> cases b.abandoned <;> rfl
    | nil =>
      cases failure with
      | some message => rfl
      | none => cases b.abandoned <;> rfl
  | some p =>
    obtain ⟨row, rows'⟩ := p
    cases cancelled with
    | true => exact .of_none rfl
    | false =>
      left
      rw [Rows.within?, Rows.all?_of_next?_some hnext]
      change (rows'.within? rest).map (row :: ·) = _
      rw [Rows.within?]
      split <;> rfl

/-- **One row of a result set.** -/
theorem rowsLeft?_row (cancelled : Bool) (b : Batch) (conn : Connection) :
    Unless (cancelled = true) (behindRow? (b.row cancelled conn)) b.rowsLeft? := by
  unfold row rowsLeft?
  cases b.stage with
  | streaming cells rows rest => exact (rowsLeft?_fetch cancelled b rows rest conn).map _
  | failing e => exact .refl _
  | idle | offering _ _ | refused _ | ended => exact .refl _

/-- **The first result set of a statement.** -/
theorem rowsLeft?_next (cancelled : Bool) {sql : String}
    (hsql : (Statement.ofText sql).isBlank = false) (conn : Connection) :
    Unless (cancelled = true ∨ conn.broken = true)
      (behindFirst? ((start [Statement.ofText sql] conn).next cancelled conn))
      (conn.backend (Statement.ofText sql).sql).firstRows? := by
  have htodo : (start [Statement.ofText sql] conn).todo = [(Statement.ofText sql).sql] := by
    simp [start, hsql]
  cases hbroken : conn.broken with
  | true =>
    have hstage : (start [Statement.ofText sql] conn).stage = .refused .brokenConnection := by
      rw [start, hbroken]
      rfl
    have hnext : (start [Statement.ofText sql] conn).next cancelled conn =
        (.error .brokenConnection, { (start [Statement.ofText sql] conn) with stage := .ended },
          conn) := by
      simp [next, dropRows, hstage]
    rw [hnext]
    exact .of_none (Or.inr rfl)
  | false =>
    have hstage : (start [Statement.ofText sql] conn).stage = .idle := by
      rw [start, hbroken]
      rfl
    have hnext : (start [Statement.ofText sql] conn).next cancelled conn =
        advance cancelled [(Statement.ofText sql).sql] conn := by
      simp [next, dropRows, hstage, htodo]
    rw [hnext]
    cases cancelled with
    | true => exact .of_none (Or.inl rfl)
    | false =>
      left
      rw [advance_cons, Reply.firstRows?]
      cases (conn.backend (Statement.ofText sql).sql).refusal with
      | some message => rfl
      | none =>
        cases (conn.backend (Statement.ofText sql).sql).sets with
        | nil =>
          cases (conn.backend (Statement.ofText sql).sql).failure with
          | some message => rfl
          | none => rfl
        | cons set sets =>
          have hfetch := rowsLeft?_fetch false
            ⟨[], .idle, false⟩ set.rows ⟨sets, (conn.backend (Statement.ofText sql).sql).failure⟩
            (conn.logged (Statement.ofText sql).sql)
          exact congrArg (Option.map some) (hfetch.eq_of_not (by simp))

end Batch

/-! ## The lines of a script -/

namespace Dump

open Text

/-- A line of a script. -/
inductive Line where
  /-- Turns off the check of foreign keys. -/
  | foreignKeys
  | beginTransaction
  /-- A definition of the catalog. -/
  | definition (text : String)
  /-- A row of a table. -/
  | row (table : String) (cells : Row)
  | commit
  deriving DecidableEq

namespace Line

/-- The statement of a line. -/
def body : Line → String
  | foreignKeys => "PRAGMA foreign_keys=OFF"
  | beginTransaction => "BEGIN TRANSACTION"
  | definition text => text
  | row table cells =>
    String.ofList ("INSERT INTO ".toList ++ Identifier.write table ++ " VALUES(".toList ++
      joined [','] (cells.map Value.literal) ++ [')'])
  | commit => "COMMIT"

/-- A line as it is written. -/
def text (l : Line) : String := l.body ++ ";"

theorem text_definition (definition : String) :
    (Line.definition definition).text = definition ++ ";" := rfl

theorem text_row (table : String) (cells : Row) :
    (row table cells).text = insertLine table cells := by
  have hend (cs : List Char) :
      String.ofList (cs ++ [')']) ++ ";" = String.ofList (cs ++ ");".toList) := by
    simp [← String.toList_inj]
  exact hend _

end Line

/-- The lines of the definitions of a table and of its rows, if the query for them has a result
set. Without one the objects that belong to the table are not reached. -/
def linesAround (definitions : TableDefinitions) (table : String) : Option (List Row) → List Line
  | none => definitions.own.toList.map .definition
  | some rows =>
    definitions.own.toList.map .definition ++ rows.map (.row table) ++
      definitions.attached.map .definition

theorem map_text_definition (definitions : List String) :
    (definitions.map .definition).map Line.text = definitions.map (· ++ ";") := by
  rw [List.map_map]
  rfl

theorem map_text_linesAround (definitions : TableDefinitions) (table : String) (rows : List Row) :
    (linesAround definitions table (some rows)).map Line.text =
      definitions.own.toList.map (· ++ ";") ++ (rows.map (insertLine table) ++
        definitions.attached.map (· ++ ";")) := by
  simp [linesAround, Function.comp_def, Line.text_definition, Line.text_row]

/-- The lines of a table. -/
def tableLines? (backend : Backend) (table : String) : Option (List Line) :=
  (backend.answer? (Catalog.definitionsQuery table)).bind fun answer =>
    (backend (Statement.ofText (rowsQuery table)).sql).firstRows?.map
      (linesAround (.ofPairs (Catalog.pairs answer)) table)

/-- The lines of several tables. -/
def tablesLines? (backend : Backend) : List String → Option (List Line)
  | [] => some []
  | table :: tables =>
    Option.map₂ (· ++ ·) (tableLines? backend table) (tablesLines? backend tables)

/-- The lines behind the tables. -/
def closingLines (settings : DumpSettings) : List Line :=
  if settings.transaction then [.commit] else []

/-- The lines of the views and those behind them. -/
def viewLines? (settings : DumpSettings) (backend : Backend) : Option (List Line) :=
  if settings.includeViews then
    (backend.answer? Catalog.viewsQuery).map fun answer =>
      (Catalog.firsts answer).map .definition ++ closingLines settings
  else some (closingLines settings)

/-- The names of the tables that are dumped. -/
def tableNames (settings : DumpSettings) (answer : List Row) : List String :=
  ((Catalog.firsts answer).filter settings.exclusions.allows).filter (!isInternal ·)

/-- The lines in front of the tables. -/
def openingLines (settings : DumpSettings) : List Line :=
  .foreignKeys :: if settings.transaction then [.beginTransaction] else []

theorem map_text_openingLines (settings : DumpSettings) :
    (openingLines settings).map Line.text =
      "PRAGMA foreign_keys=OFF;" ::
        if settings.transaction then ["BEGIN TRANSACTION;"] else [] := by
  rw [openingLines]
  split <;> rfl

/-- **The script of a database**, if all questions for it are answered. -/
def script? (settings : DumpSettings) (backend : Backend) : Option (List Line) :=
  (backend.answer? Catalog.tablesQuery).bind fun answer =>
    (Option.map₂ (· ++ ·) (tablesLines? backend (tableNames settings answer))
      (viewLines? settings backend)).map (openingLines settings ++ ·)

/-! ## What is left to be written -/

/-- The lines that need no new question. -/
def pending? (d : Dump) : Option (List String) :=
  match d.rows with
  | none => some d.ready
  | some b =>
    b.rowsLeft?.map fun rows => d.ready ++ (rows.map (insertLine d.table) ++ d.attached)

/-- The lines that need questions which a dump has still to ask. -/
def unasked? (settings : DumpSettings) (backend : Backend) : Stage → Option (List Line)
  | .opening => script? settings backend
  | .tables names =>
    Option.map₂ (· ++ ·) (tablesLines? backend names) (viewLines? settings backend)
  | .closing => some (closingLines settings)
  | .done => some []

/-- The lines that are left to be written. -/
def left? (backend : Backend) (d : Dump) : Option (List String) :=
  Option.map₂ (· ++ ·) d.pending? ((unasked? d.settings backend d.stage).map (·.map Line.text))

/-- The lines that are left, seen from behind a request for one. -/
def behindLine? (backend : Backend) : LineResult × Dump × Connection → Option (List String)
  | (.line text, d, _) => (d.left? backend).map (text :: ·)
  | (.error _, _, _) => none
  | (.done, _, _) => some []

section Requests

variable {cancelled : Bool} {d : Dump} {conn : Connection}

/-- What a dump comes to that asks nothing new: a line, an error, or the end of what was ready. -/
theorem emit?_cases (cancelled : Bool) (d : Dump) (conn : Connection) :
    (∃ text d' conn', d.emit? cancelled conn = (some (.line text), d', conn') ∧
      d'.stage = d.stage ∧ d'.settings = d.settings ∧ conn'.Alike conn ∧
      Unless (cancelled = true) (d'.pending?.map (text :: ·)) d.pending?) ∨
    (∃ e conn', d.emit? cancelled conn = (some (.error e), d.fail, conn') ∧ conn'.Alike conn ∧
      Unless (cancelled = true) none d.pending?) ∨
    (∃ conn', d.emit? cancelled conn = (none, { d with ready := [], rows := none }, conn') ∧
      conn'.Alike conn ∧ d.pending? = some []) := by
  obtain ⟨settings, stage, ready, rows, table, attached⟩ := d
  cases ready with
  | cons line ready =>
    refine Or.inl ⟨_, _, _, rfl, rfl, rfl, .refl _, Or.inl ?_⟩
    cases rows with
    | none => rfl
    | some b => simp [pending?, Function.comp_def]
  | nil =>
    cases rows with
    | none => exact Or.inr (Or.inr ⟨_, rfl, .refl _, rfl⟩)
    | some b =>
      obtain ⟨result, b', conn', _, hrow, -, ha, -⟩ := b.row_alike cancelled conn conn
      have hleft := (b.rowsLeft?_row cancelled conn).map fun rows =>
        rows.map (insertLine table) ++ attached
      rw [hrow] at hleft
      simp only [emit?, hrow]
      cases result with
      | row cells =>
        refine Or.inl ⟨_, _, _, rfl, rfl, rfl, ha, ?_⟩
        simpa [Batch.behindRow?, pending?, Function.comp_def] using hleft
      | error e => exact Or.inr (Or.inl ⟨e, _, rfl, ha, hleft⟩)
      | done =>
        have hnil : b.rowsLeft? = some [] :=
          ((b.rowsLeft?_row cancelled conn).eq_some (by rw [hrow]; rfl))
        cases attached with
        | nil => exact Or.inr (Or.inr ⟨_, rfl, ha, by simp [pending?, hnil]⟩)
        | cons line attached =>
          exact Or.inl ⟨_, _, _, rfl, rfl, rfl, ha, Or.inl (by simp [pending?, hnil])⟩

/-- The query for the rows of a table is run as it is. -/
theorem verbatim_rowsQuery (table : String) : Statement.Verbatim (rowsQuery table) := by
  have happend : rowsQuery table = "SELECT * FROM " ++
      String.ofList ('"' :: Text.doubled '"' table.toList) ++ "\"" := by
    simp [rowsQuery, Identifier.quoted, Text.enclosed, ← String.toList_inj]
  rw [happend]
  exact Statement.verbatim_append (c := 'S') (d := '"') (by simp) (by simp) rfl rfl _

/-- The beginning of a table: its definitions are ready then, and its rows are on their way. -/
theorem begin_cases (cancelled : Bool) (hrows : d.rows = none) (table : String)
    (conn : Connection) :
    (∃ d' conn', d.begin cancelled table conn = (.ok d', conn') ∧ d'.stage = d.stage ∧
      d'.settings = d.settings ∧ conn'.Alike conn ∧
      Unless (cancelled = true ∨ conn.broken = true) d'.pending?
        ((tableLines? conn.backend table).map (·.map Line.text))) ∨
    (∃ e conn', d.begin cancelled table conn = (.error e, conn') ∧ conn'.Alike conn ∧
      Unless (cancelled = true ∨ conn.broken = true) none
        ((tableLines? conn.backend table).map (·.map Line.text))) := by
  obtain ⟨answer, conn₁, hask, hanswer, ha⟩ | ⟨e, conn₁, hask, hnone, ha⟩ :=
    conn.ask_cases (Catalog.definitionsQuery table) fun rows =>
      TableDefinitions.ofPairs (Catalog.pairs rows)
  · obtain ⟨result, b, conn₂, _, hnext, -, hb, -⟩ :=
      (Batch.start [Statement.ofText (rowsQuery table)] conn₁).next_alike cancelled (.refl conn₁)
    have hblank := (verbatim_rowsQuery table).isBlank
    have hfirst := (Batch.rowsLeft?_next cancelled hblank conn₁).map fun rows =>
      (linesAround (.ofPairs (Catalog.pairs answer)) table rows).map Line.text
    have hlines : (tableLines? conn.backend table).map (·.map Line.text) =
        (conn.backend (Statement.ofText (rowsQuery table)).sql).firstRows?.map fun rows =>
          (linesAround (.ofPairs (Catalog.pairs answer)) table rows).map Line.text := by
      rw [tableLines?, hanswer, Option.bind_some, Option.map_map]
      rfl
    rw [hnext, ha.backend, ha.broken, ← hlines] at hfirst
    simp only [begin, Connection.tableDefinitions, hask, hnext]
    cases result with
    | columns names =>
      refine Or.inl ⟨_, _, rfl, rfl, rfl, hb.trans ha, ?_⟩
      rw [Batch.behindFirst?, Option.map_map] at hfirst
      simp only [pending?, Batch.rowsLeft?_abandon, ← map_text_linesAround]
      exact hfirst
    | error e => exact Or.inr ⟨e, _, rfl, hb.trans ha, hfirst⟩
    | done =>
      refine Or.inl ⟨_, _, rfl, rfl, rfl, hb.trans ha, ?_⟩
      simp only [pending?, hrows, ← map_text_definition]
      exact hfirst
  · refine Or.inr ⟨e, conn₁, by simp only [begin, Connection.tableDefinitions, hask], ha, ?_⟩
    rcases hnone with hbroken | hnone
    · exact .of_none (Or.inr hbroken)
    · exact Or.inl (by simp [tableLines?, hnone])

/-! Once nothing is ready, the tables that are left, the views and the end of the script are all
that is left. -/

theorem left?_of_ready_nil (hready : d.ready = []) (hrows : d.rows = none) (backend : Backend) :
    d.left? backend = (unasked? d.settings backend d.stage).map (·.map Line.text) := by
  rw [left?, pending?, hrows, hready]
  cases unasked? d.settings backend d.stage <;> rfl

theorem close_spec (hready : d.ready = []) (hrows : d.rows = none) (conn : Connection) :
    behindLine? conn.backend (d.close conn) =
        some ((closingLines d.settings).map Line.text) ∧
      (d.close conn).2.2.Alike conn := by
  rw [close, closingLines]
  cases d.settings.transaction with
  | true =>
    have hleft := left?_of_ready_nil (d := { d with stage := .done }) hready hrows conn.backend
    refine ⟨?_, .refl conn⟩
    rw [if_pos rfl, behindLine?, hleft]
    rfl
  | false => exact ⟨rfl, .refl conn⟩

theorem leaveTables_spec (cancelled : Bool) (hready : d.ready = []) (hrows : d.rows = none)
    (conn : Connection) :
    Unless (cancelled = true ∨ conn.broken = true)
        (behindLine? conn.backend (d.leaveTables conn))
        ((viewLines? d.settings conn.backend).map (·.map Line.text)) ∧
      (d.leaveTables conn).2.2.Alike conn := by
  rw [leaveTables, viewLines?]
  cases hviews : d.settings.includeViews with
  | false =>
    obtain ⟨hclose, ha⟩ := close_spec hready hrows conn
    exact ⟨Or.inl hclose, ha⟩
  | true =>
    rw [if_pos rfl, if_pos rfl]
    obtain ⟨answer, conn₁, hask, hanswer, ha⟩ | ⟨e, conn₁, hask, hnone, ha⟩ :=
      conn.ask_cases Catalog.viewsQuery Catalog.firsts
    · rw [Connection.views, hask, hanswer]
      cases hfirsts : Catalog.firsts answer with
      | nil =>
        obtain ⟨hclose, ha'⟩ := close_spec hready hrows conn₁
        rw [ha.backend] at hclose
        exact ⟨Or.inl (by simpa [hfirsts] using hclose), ha'.trans ha⟩
      | cons view views =>
        refine ⟨Or.inl ?_, ha⟩
        simp [behindLine?, left?, pending?, hrows, unasked?, hfirsts, Function.comp_def,
          Line.text_definition]
    · rw [Connection.views, hask]
      refine ⟨?_, ha⟩
      rcases hnone with hbroken | hnone
      · exact .of_none (Or.inr hbroken)
      · exact Or.inl (by rw [hnone]; rfl)

theorem some_nil_append {α : Type} (x : Option (List α)) :
    Option.map₂ (· ++ ·) (some []) x = x := by
  cases x <;> rfl

theorem unasked?_tables_cons (settings : DumpSettings) (backend : Backend) (table : String)
    (tables : List String) :
    (unasked? settings backend (.tables (table :: tables))).map (·.map Line.text) =
      Option.map₂ (· ++ ·) ((tableLines? backend table).map (·.map Line.text))
        ((unasked? settings backend (.tables tables)).map (·.map Line.text)) := by
  rw [unasked?, unasked?, tablesLines?]
  cases tableLines? backend table <;> cases tablesLines? backend tables <;>
    cases viewLines? settings backend <;> simp

theorem behindLine?_line {d' : Dump} {backend : Backend} (text : String) (conn : Connection) :
    behindLine? backend (.line text, d', conn) = Option.map₂ (· ++ ·)
      (d'.pending?.map (text :: ·))
      ((unasked? d'.settings backend d'.stage).map (·.map Line.text)) := by
  rw [behindLine?, left?]
  cases d'.pending? <;> cases unasked? d'.settings backend d'.stage <;> rfl

/-- The tables that are left, one by one. -/
theorem fromTables_spec (cancelled : Bool) (hready : d.ready = []) (hrows : d.rows = none)
    (names : List String) (conn : Connection) :
    Unless (cancelled = true ∨ conn.broken = true)
        (behindLine? conn.backend (d.fromTables cancelled names conn))
        ((unasked? d.settings conn.backend (.tables names)).map (·.map Line.text)) ∧
      (d.fromTables cancelled names conn).2.2.Alike conn := by
  induction names generalizing d conn with
  | nil =>
    have hleave := leaveTables_spec cancelled hready hrows conn
    simpa [fromTables, unasked?, tablesLines?] using hleave
  | cons table tables ih =>
    rw [fromTables, unasked?_tables_cons]
    obtain ⟨d', conn', hbegin, hstage, hsettings, ha, hlines⟩ | ⟨e, conn', hbegin, ha, hlines⟩ :=
      begin_cases cancelled hrows table conn <;> rw [hbegin]
    · have hbackend := ha.backend
      have hinterfered : cancelled = true → cancelled = true ∨ conn.broken = true := Or.inl
      obtain ⟨text, d₁, conn₁, hemit, hstage₁, hsettings₁, ha₁, hpending⟩ |
        ⟨e, conn₁, hemit, ha₁, hpending⟩ | ⟨conn₁, hemit, ha₁, hpending⟩ :=
          emit?_cases cancelled { d' with stage := .tables tables } conn' <;> simp only [hemit]
      · refine ⟨?_, ha₁.trans ha⟩
        rw [behindLine?_line, hstage₁, hsettings₁]
        simp only [hsettings]
        exact ((hpending.mono hinterfered).trans hlines).map₂ _ _
      · exact ⟨((hpending.mono hinterfered).trans hlines).map₂ _ _, ha₁.trans ha⟩
      · -- The table has no line at all.
        have hnil : (tableLines? conn.backend table).map (·.map Line.text) = some [] :=
          hlines.eq_some hpending
        obtain ⟨hrest, ha₂⟩ :=
          ih (d := { d' with stage := .tables tables, ready := [], rows := none }) rfl rfl conn₁
        rw [ha₁.backend, ha₁.broken, ha.backend, ha.broken] at hrest
        refine ⟨?_, ha₂.trans (ha₁.trans ha)⟩
        rw [hnil, some_nil_append, ← hsettings]
        exact hrest
    · exact ⟨hlines.map₂ _ _, ha⟩

/-- The beginning of the script. The tables are known when its first line is written. -/
theorem fromOpening_spec (cancelled : Bool) (hrows : d.rows = none) (conn : Connection) :
    Unless (cancelled = true ∨ conn.broken = true)
        (behindLine? conn.backend (d.fromOpening conn))
        ((script? d.settings conn.backend).map (·.map Line.text)) ∧
      (d.fromOpening conn).2.2.Alike conn := by
  rw [fromOpening, script?, Connection.tables]
  obtain ⟨answer, conn₁, hask, hanswer, ha⟩ | ⟨e, conn₁, hask, hnone, ha⟩ :=
    conn.ask_cases Catalog.tablesQuery fun rows =>
      (Catalog.firsts rows).filter d.settings.exclusions.allows
  · rw [hask, hanswer]
    refine ⟨Or.inl ?_, ha⟩
    simp only [behindLine?_line, pending?, hrows, unasked?, tableNames, Option.bind_some]
    generalize Option.map₂ (· ++ ·) (tablesLines? conn.backend _) _ = behind
    cases behind with
    | none => rfl
    | some lines => simp [map_text_openingLines]
  · rw [hask]
    refine ⟨?_, ha⟩
    rcases hnone with hbroken | hnone
    · exact .of_none (Or.inr hbroken)
    · exact Or.inl (by rw [hnone]; rfl)

/-- **One line of a dump.** What is left behind it is the rest of what was left. -/
theorem next_left? (cancelled : Bool) (d : Dump) (conn : Connection) :
    Unless (cancelled = true ∨ conn.broken = true)
        (behindLine? conn.backend (d.next cancelled conn)) (d.left? conn.backend) ∧
      (d.next cancelled conn).2.2.Alike conn := by
  have hinterfered : cancelled = true → cancelled = true ∨ conn.broken = true := Or.inl
  rw [next]
  obtain ⟨text, d', conn', hemit, hstage, hsettings, ha, hpending⟩ |
    ⟨e, conn', hemit, ha, hpending⟩ | ⟨conn', hemit, ha, hpending⟩ :=
      emit?_cases cancelled d conn <;> simp only [hemit]
  · refine ⟨?_, ha⟩
    rw [behindLine?_line, hstage, hsettings]
    exact (hpending.mono hinterfered).map₂ _ _
  · exact ⟨(hpending.mono hinterfered).map₂ _ _, ha⟩
  · -- Nothing was ready: how the dump goes on is a matter of its stage.
    rw [left?, hpending, some_nil_append, ← ha.backend, ← ha.broken]
    cases hstage : d.stage with
    | opening =>
      obtain ⟨hspec, ha'⟩ := fromOpening_spec cancelled
        (d := { d with stage := .opening, ready := [], rows := none }) rfl conn'
      exact ⟨hspec, ha'.trans ha⟩
    | tables names =>
      obtain ⟨hspec, ha'⟩ := fromTables_spec cancelled
        (d := { d with stage := .tables names, ready := [], rows := none }) rfl rfl names conn'
      exact ⟨hspec, ha'.trans ha⟩
    | closing =>
      obtain ⟨hspec, ha'⟩ :=
        close_spec (d := { d with stage := .closing, ready := [], rows := none }) rfl rfl conn'
      exact ⟨Or.inl hspec, ha'.trans ha⟩
    | done => exact ⟨.refl _, ha⟩

end Requests

/-! ## Whole dumps -/

/-- A dump is read to its end without an error, and these are its lines. Between the lines the
connection may be used by others, and the dump may be cancelled. -/
inductive Writes (backend : Backend) : Dump → List String → Prop
  | done {cancelled d d' conn conn'} (hconn : conn.backend = backend)
      (h : d.next cancelled conn = (.done, d', conn')) : Writes backend d []
  | line {cancelled d d' conn conn' text lines} (hconn : conn.backend = backend)
      (h : d.next cancelled conn = (.line text, d', conn')) (hrest : Writes backend d' lines) :
      Writes backend d (text :: lines)

variable {backend : Backend} {d : Dump} {lines : List String}

/-- Nothing is written but what was left to be written. -/
theorem Writes.left?_eq (h : Writes backend d lines) : d.left? backend = some lines := by
  induction h with
  | @done cancelled d d' conn conn' hconn h =>
    subst hconn
    exact (next_left? cancelled d conn).1.eq_some (by rw [h]; rfl)
  | @line cancelled d d' conn conn' text lines hconn h _ ih =>
    subst hconn
    refine (next_left? cancelled d conn).1.eq_some ?_
    rw [h, behindLine?, ih]
    rfl

/-- What is left is written, if the connection is not broken and nobody cancels. -/
theorem writes_of_left? {conn : Connection} (hbroken : conn.broken = false)
    (h : d.left? conn.backend = some lines) : Writes conn.backend d lines := by
  induction lines generalizing d conn with
  | nil =>
    obtain ⟨hleft, -⟩ := next_left? false d conn
    have hbehind := (hleft.eq_of_not (by simp [hbroken])).trans h
    rcases hnext : d.next false conn with ⟨result, d', conn'⟩
    rw [hnext] at hbehind
    cases result with
    | line text => simp [behindLine?] at hbehind
    | error e => cases hbehind
    | done => exact .done rfl hnext
  | cons line lines ih =>
    obtain ⟨hleft, ha⟩ := next_left? false d conn
    have hbehind := (hleft.eq_of_not (by simp [hbroken])).trans h
    rcases hnext : d.next false conn with ⟨result, d', conn'⟩
    rw [hnext] at hbehind ha
    cases result with
    | line text =>
      obtain ⟨rest, hrest, hcons⟩ := Option.map_eq_some_iff.mp hbehind
      obtain ⟨rfl, rfl⟩ := List.cons.inj hcons
      have hlines : Writes conn'.backend d' rest :=
        ih (ha.broken.trans hbroken) (by rw [ha.backend, hrest])
      exact .line rfl hnext (ha.backend ▸ hlines)
    | error e => cases hbehind
    | done => cases hbehind

/-- **A dump writes the script of its database.** If all its questions are answered there is one,
and it is written unless the dump is cancelled or the connection broken meanwhile. -/
theorem writes_iff {settings : DumpSettings} :
    Writes backend { settings } lines ↔
      (script? settings backend).map (·.map Line.text) = some lines := by
  have hleft : ({ settings } : Dump).left? backend =
      (script? settings backend).map (·.map Line.text) := left?_of_ready_nil rfl rfl backend
  have hfresh : ({ backend } : Connection).broken = false := rfl
  rw [← hleft]
  constructor
  · exact Writes.left?_eq
  · intro h
    exact writes_of_left? hfresh h

end Dump

end SqlConsole
