import SqlConsole.Proofs.Dump.Extent
import SqlConsole.Proofs.Dump.Moments
import SqlConsole.Proofs.Dump.Order

/-!
# Dumps that fail

A dump asks questions in between its lines, and any of them may fail: the database refuses it, or
fails behind some rows, the connection is broken, or the dump was cancelled, which only the queries
for rows take notice of. `Dump.Fails` says which lines there are then, and with which error they
end. If the tables are not known there are none. If the definitions of a table are not known, or its
rows cannot be asked for, there are the lines of the tables before it. If the rows break off, there
are the definition of the table and the rows so far as well; and if the views are not known, there
are the lines of all tables.

Each of these failures is seen by whoever asks for lines, and nothing else is an error
(`Dump.breaksOff`): the lines are followed by one error, and then there is nothing more, and nothing
is run.
-/

namespace SqlConsole

namespace Dump

section Reference

variable (settings : DumpSettings) (backend : Backend) (moments : Nat → Moment)

/-- The answer to a question to the catalog at some moment. -/
def told (m : Moment) (sql : String) : Except Error (List Row) :=
  (Connection.ask { backend, broken := m.broken } sql fun rows => rows).1

/-- The error if the query for the rows of a table cannot be started at some moment. -/
def refused? (m : Moment) (table : String) : Option Error :=
  if m.broken then some .brokenConnection
  else if m.cancelled then some .cancelled
  else (backend (rowsQuery table)).rejection?.map .ofBackend

/-- A table is begun with the answer to request `k`: its definitions are known, and the query for
its rows has one result set. -/
structure Begun (k : Nat) (table : String) (definitions : TableDefinitions) (set : ResultSet) :
    Prop where
  definitions : ∃ answer, told backend (moments k) (Catalog.definitionsQuery table) = .ok answer ∧
    TableDefinitions.ofPairs (Catalog.pairs answer) = definitions
  started : refused? backend (moments k) table = none
  set : (backend (rowsQuery table)).sets = [set]

/-- The first `n` rows of a begun table are handed over behind its definition, and then `stop`. -/
def Delivers (k : Nat) (table : String) (definitions : TableDefinitions) (set : ResultSet) (n : Nat)
    (stop : Option Error) : Prop :=
  Begun backend moments k table definitions set ∧
    Streams moments (backend (rowsQuery table)).failure (k + definitions.own.toList.length)
      set.rows n stop

/-- **How a dump fails that has come to its tables**: the tables that are left from request `k` on,
the lines that are still handed over, and the error. -/
inductive FailsFrom : Nat → List String → List Line → Error → Prop
  /-- The definitions of a table are not known. -/
  | definitions {k : Nat} {table : String} {tables : List String} {e : Error}
    (h : told backend (moments k) (Catalog.definitionsQuery table) = .error e) :
    FailsFrom k (table :: tables) [] e
  /-- The rows of a table cannot be asked for. -/
  | start {k : Nat} {table : String} {tables : List String} {answer : List Row} {e : Error}
    (hanswer : told backend (moments k) (Catalog.definitionsQuery table) = .ok answer)
    (h : refused? backend (moments k) table = some e) :
    FailsFrom k (table :: tables) [] e
  /-- The rows of a table break off. -/
  | rows {k : Nat} {table : String} {tables : List String} {definitions : TableDefinitions}
    {set : ResultSet} {n : Nat} {e : Error}
    (h : Delivers backend moments k table definitions set n (some e)) :
    FailsFrom k (table :: tables)
      (definitions.own.toList.map .definition ++ (set.rows.take n).map (.row table)) e
  /-- A table is through, and the dump fails behind it. -/
  | later {k : Nat} {table : String} {tables : List String} {definitions : TableDefinitions}
    {set : ResultSet} {n : Nat} {lines : List Line} {e : Error}
    (h : Delivers backend moments k table definitions set n none)
    (hrest : FailsFrom (k + (linesAround definitions table (some (set.rows.take n))).length) tables
      lines e) :
    FailsFrom k (table :: tables) (linesAround definitions table (some (set.rows.take n)) ++ lines)
      e
  /-- The views are not known. -/
  | views {k : Nat} {e : Error} (hviews : settings.includeViews = true)
    (h : told backend (moments k) Catalog.viewsQuery = .error e) : FailsFrom k [] [] e

/-- **How a dump fails**: the lines that are handed over, and the error. -/
inductive Fails : List Line → Error → Prop
  /-- The tables are not known. -/
  | tables {e : Error} (h : told backend (moments 0) Catalog.tablesQuery = .error e) : Fails [] e
  /-- It fails behind the opening lines. -/
  | behind {answer : List Row} {lines : List Line} {e : Error}
    (hanswer : told backend (moments 0) Catalog.tablesQuery = .ok answer)
    (hrest : FailsFrom settings backend moments (openingLines settings).length
      (tableNames settings answer) lines e) :
    Fails (openingLines settings ++ lines) e

/-- The query for the rows of a table is rejected or has one result set. -/
def SingleSet (table : String) : Prop :=
  (backend (rowsQuery table)).rejection? ≠ none ∨ ∃ set, (backend (rowsQuery table)).sets = [set]

/-- That is so for each table that is dumped. -/
def SingleSets : Prop :=
  ∀ answer, backend.answer? Catalog.tablesQuery = some answer →
    ∀ table ∈ tableNames settings answer, SingleSet backend table

end Reference

/-- **A database in place of one that fails**: what this one answers, it answers as well, and where
this one fails behind rows, it has these rows first. -/
structure Mends (backend backend' : Backend) : Prop where
  questions : ∀ sql answer, backend.answer? sql = some answer → backend'.answer? sql = some answer
  tables : ∀ table, (backend (rowsQuery table)).refusal = none →
    (backend (rowsQuery table)).failure = none →
    backend' (rowsQuery table) = backend (rowsQuery table)
  rows : ∀ table set, (backend (rowsQuery table)).refusal = none →
    (backend (rowsQuery table)).sets = [set] →
    ∃ set', (backend' (rowsQuery table)).sets = [set'] ∧
      ∀ all, set'.rows.all? = some all → ∀ n, set.rows.take n <+: all

/-- A dump can fail though the database does not. -/
theorem Mends.refl (backend : Backend) : Mends backend backend where
  questions _ _ h := h
  tables _ _ _ := rfl
  rows _ set _ hset := ⟨set, hset, fun _ hall n => Rows.isPrefix_take hall n⟩

/-! ## Each failure is seen -/

variable {settings : DumpSettings} {backend : Backend} {moments : Nat → Moment} {k : Nat}

/-- A question is answered on a connection as it is at the moment. -/
theorem ask_eq_told {α : Type} {m : Moment} {conn : Connection} (hconn : conn.backend = backend)
    (hbroken : conn.broken = m.broken) (sql : String) (read : List Row → α) :
    ∃ log n, conn.ask sql read = ((told backend m sql).map read, conn.used log n) := by
  obtain ⟨result, log, n, -, hquery⟩ := conn.query_uses sql
  have halike : Connection.Alike { backend, broken := m.broken } conn := ⟨hconn.symm, hbroken.symm⟩
  refine ⟨log, n, ?_⟩
  rw [told, Connection.ask, Connection.ask, hquery conn (.refl conn), hquery _ halike]
  cases result <;> rfl

/-- What is told is the answer of the database. -/
theorem answer?_of_told {m : Moment} {sql : String} {answer : List Row}
    (h : told backend m sql = .ok answer) : backend.answer? sql = some answer := by
  obtain ⟨rows, conn, hask, hanswer, -⟩ | ⟨e, conn, hask, -, -⟩ :=
    Connection.ask_cases { backend, broken := m.broken } sql fun rows => rows
  · rw [told, hask] at h
    rw [← Except.ok.inj h]
    exact hanswer
  · rw [told, hask] at h
    cases h

/-- As long as the connection is whole, a question is told what the database answers. -/
theorem told_of_answer? {m : Moment} {sql : String} {answer : List Row} (hm : m.broken = false)
    (hsql : Statement.Verbatim sql) (h : backend.answer? sql = some answer) :
    told backend m sql = .ok answer := by
  have hquery := @Connection.query_of_answer? { backend, broken := m.broken } _ _ hm hsql h
  rw [told, Connection.ask, hquery]

/-- A dump that has come to its tables, in between two of them. -/
def resting (settings : DumpSettings) (tables : List String) (table : String)
    (attached : List String) : Dump :=
  { settings, stage := .tables tables, table, attached }

/-- A dump in the middle of a table. -/
def within (settings : DumpSettings) (tables : List String) (table : String)
    (definitions : TableDefinitions) (b : Batch) : Dump :=
  { settings, stage := .tables tables
    ready := (definitions.own.toList.map Line.definition).map Line.text
    rows := some b, table
    attached := (definitions.attached.map Line.definition).map Line.text }

theorem next_resting (settings : DumpSettings) (tables : List String) (table : String)
    (attached : List String) (cancelled : Bool) (conn : Connection) :
    (resting settings tables table attached).next cancelled conn =
      (resting settings tables table attached).fromTables cancelled tables conn := rfl

theorem next_tables {d : Dump} {tables : List String} (hs : d.stage = .tables tables)
    (cancelled : Bool) (conn : Connection) :
    d.next cancelled conn =
      match d.emit? cancelled conn with
      | (some result, d, conn) => (result, d, conn)
      | (none, d, conn) => d.fromTables cancelled tables conn := by
  rw [next]
  obtain ⟨text, d', conn', hemit, -⟩ | ⟨e, conn', hemit, -⟩ | ⟨conn', hemit, -⟩ :=
    d.emit?_cases cancelled conn <;> rw [hemit]
  simp only [hs]

/-- The query for the rows of a table, at some moment. -/
theorem next_start {m : Moment} {conn : Connection} (hconn : conn.backend = backend)
    (hbroken : conn.broken = m.broken) (table : String) :
    (∀ e, refused? backend m table = some e → ∃ b log n,
      (Batch.start [Statement.ofText (rowsQuery table)] conn).next m.cancelled conn =
        (.error e, b, conn.used log n)) ∧
    (∀ set, refused? backend m table = none → (backend (rowsQuery table)).sets = [set] →
      ∃ columns b log n,
        b.abandon = .arriving false (backend (rowsQuery table)).failure set.rows ∧
        (Batch.start [Statement.ofText (rowsQuery table)] conn).next m.cancelled conn =
          (.columns columns, b, conn.used log n)) := by
  have hsql := verbatim_rowsQuery table
  have hstart : Batch.start [Statement.ofText (rowsQuery table)] conn =
      ⟨[rowsQuery table], if m.broken then .refused .brokenConnection else .idle, false⟩ := by
    simp [Batch.start, hsql.isBlank, hsql.sql, hbroken]
  rw [hstart]
  obtain ⟨cancelled, broken⟩ := m
  -- The connection is looked at first, then the token, and the database is asked at last.
  cases broken with
  | true =>
    refine ⟨fun e he => ?_, fun set h => by simp [refused?] at h⟩
    obtain rfl : Error.brokenConnection = e := by simpa [refused?] using he
    exact ⟨_, [], 0, by rw [conn.used_nil]; rfl⟩
  | false =>
    cases cancelled with
    | true =>
      refine ⟨fun e he => ?_, fun set h => by simp [refused?] at h⟩
      obtain rfl : Error.cancelled = e := by simpa [refused?] using he
      exact ⟨_, [], 0, by rw [conn.used_nil]; rfl⟩
    | false =>
      have hnext : Batch.next false ⟨[rowsQuery table], .idle, false⟩ conn =
          Batch.advance false [rowsQuery table] conn := Batch.next_idle rfl
      simp only [refused?, Bool.false_eq_true, ↓reduceIte, hnext]
      subst hconn
      obtain ⟨message, hr, hadvance⟩ | ⟨set, sets, hr, hs, hadvance⟩ | ⟨hr, hs, -⟩ :=
        Batch.advance_cases [] (rowsQuery table) conn <;> rw [hr]
      · refine ⟨fun e he => ?_, fun set h => by simp at h⟩
        obtain rfl : Error.ofBackend message = e := by simpa using he
        rw [hadvance, conn.logged_eq_used]
        exact ⟨_, _, _, rfl⟩
      · refine ⟨fun e he => by simp at he, fun set' _ hset => ?_⟩
        obtain ⟨rfl, rfl⟩ : set = set' ∧ sets = [] := by simpa [hs] using hset
        obtain ⟨b, n, hb, hfetch⟩ :=
          Batch.abandon_fetch set.rows (conn.backend (rowsQuery table)).failure
        refine ⟨set.columns, b, [rowsQuery table], 0 + n, hb, ?_⟩
        rw [hadvance, hfetch, conn.logged_eq_used, Connection.used_used, List.append_nil]
      · exact ⟨fun e he => by simp at he, fun set _ h => by simp [hs] at h⟩

theorem breaks_definitions {table : String} {tables : List String} {e : Error}
    (h : told backend (moments k) (Catalog.definitionsQuery table) = .error e) (t : String)
    (attached : List String) :
    Breaks backend moments k (resting settings (table :: tables) t attached) e := by
  refine .of_next fun conn hconn hbroken => ?_
  obtain ⟨log, n, hask⟩ := ask_eq_told hconn hbroken (Catalog.definitionsQuery table) fun rows =>
    TableDefinitions.ofPairs (Catalog.pairs rows)
  rw [h] at hask
  refine ⟨resting settings (table :: tables) t attached, conn.used log n, ?_⟩
  have hdefinitions : conn.tableDefinitions table = (.error e, conn.used log n) := hask
  rw [next_resting, fromTables, begin, hdefinitions]

theorem breaks_start {table : String} {tables : List String} {answer : List Row} {e : Error}
    (hanswer : told backend (moments k) (Catalog.definitionsQuery table) = .ok answer)
    (h : refused? backend (moments k) table = some e) (t : String) (attached : List String) :
    Breaks backend moments k (resting settings (table :: tables) t attached) e := by
  refine .of_next fun conn hconn hbroken => ?_
  obtain ⟨log, n, hask⟩ := ask_eq_told hconn hbroken (Catalog.definitionsQuery table) fun rows =>
    TableDefinitions.ofPairs (Catalog.pairs rows)
  rw [hanswer] at hask
  obtain ⟨b, log', n', hstart⟩ :=
    (@next_start _ _ (conn.used log n) hconn hbroken table).1 e h
  refine ⟨resting settings (table :: tables) t attached, (conn.used log n).used log' n', ?_⟩
  have hdefinitions : conn.tableDefinitions table = (.ok _, conn.used log n) := hask
  rw [next_resting, fromTables, begin, hdefinitions]
  simp only [hstart]

/-- **A table that is begun** is in the middle of its rows. -/
theorem Begun.leads {table : String} {definitions : TableDefinitions} {set : ResultSet}
    (h : Begun backend moments k table definitions set) (tables : List String) (t : String)
    (attached : List String) :
    Leads backend moments k (resting settings (table :: tables) t attached) []
      (within settings tables table definitions
        (.arriving false (backend (rowsQuery table)).failure set.rows)) := by
  obtain ⟨answer, hanswer, rfl⟩ := h.definitions
  refine .of_next_eq fun conn hconn hbroken => ?_
  obtain ⟨log, n, hask⟩ := ask_eq_told hconn hbroken (Catalog.definitionsQuery table) fun rows =>
    TableDefinitions.ofPairs (Catalog.pairs rows)
  rw [hanswer] at hask
  obtain ⟨columns, b, log', n', hb, hstart⟩ :=
    (@next_start _ _ (conn.used log n) hconn hbroken table).2 set h.started h.set
  refine ⟨(conn.used log n).used log' n', ⟨rfl, rfl⟩, ?_⟩
  have hdefinitions : conn.tableDefinitions table = (.ok _, conn.used log n) := hask
  rw [next_resting, fromTables, begin, hdefinitions, @next_tables (within _ _ _ _ _) tables rfl]
  simp only [hstart, hb, within, map_text_definition]
  rfl

/-- An error in place of a row ends the dump. -/
theorem breaks_stopped (d : Dump) (e : Error) (k : Nat) :
    Breaks backend moments k { d with ready := [], rows := some (.stopped (some e)) } e :=
  .of_next fun conn _ _ => ⟨{ d with ready := [], rows := some (.stopped (some e)) }, conn, rfl⟩

/-- Behind the last row come the lines that belong to the table. -/
theorem leads_stopped (d : Dump) (k : Nat) :
    Leads backend moments k { d with ready := [], rows := some (.stopped none) } []
      { d with ready := d.attached, rows := none, attached := [] } := by
  refine .of_next_eq fun conn _ _ => ⟨conn, .refl conn, ?_⟩
  obtain ⟨settings, stage, ready, rows, table, attached⟩ := d
  cases attached <;> rfl

section Tables

variable {table : String} {definitions : TableDefinitions} {set : ResultSet} {n : Nat}
  {stop : Option Error}

/-- The definition of a table is handed over, and its first row has arrived. -/
theorem Begun.leads_own (h : Begun backend moments k table definitions set) (tables : List String)
    (t : String) (attached : List String) :
    Leads backend moments k (resting settings (table :: tables) t attached)
      (definitions.own.toList.map .definition)
      { within settings tables table definitions
          (.arriving false (backend (rowsQuery table)).failure set.rows) with ready := [] } := by
  have hown : Leads backend moments k (within settings tables table definitions _) _ _ :=
    leads_ready (definitions.own.toList.map .definition) k
      (within settings tables table definitions
        (.arriving false (backend (rowsQuery table)).failure set.rows))
  exact (h.leads tables t attached).trans hown

/-- The definition of a table and its rows are handed over. -/
theorem Delivers.leads (h : Delivers backend moments k table definitions set n stop)
    (tables : List String) (t : String) (attached : List String) :
    Leads backend moments k (resting settings (table :: tables) t attached)
      (definitions.own.toList.map .definition ++ (set.rows.take n).map (.row table))
      { within settings tables table definitions (.stopped stop) with ready := [] } := by
  obtain ⟨hbegun, hstreams⟩ := h
  refine (hbegun.leads_own tables t attached).trans ?_
  rw [List.length_map]
  exact leads_streams hstreams _

/-- **A table that is through** is left with all its lines. -/
theorem Delivers.leads_all (h : Delivers backend moments k table definitions set n none)
    (tables : List String) (t : String) (attached : List String) :
    Leads backend moments k (resting settings (table :: tables) t attached)
      (linesAround definitions table (some (set.rows.take n)))
      (resting settings tables table []) := by
  have hlines : Leads backend moments k (resting settings (table :: tables) t attached) _ _ :=
    h.leads tables t attached
  have hrows := hlines.trans (leads_stopped _ _)
  rw [List.append_nil] at hrows
  exact hrows.trans (leads_ready (definitions.attached.map .definition) _
    (resting settings tables table []))

end Tables

theorem breaks_views {e : Error} (hviews : settings.includeViews = true)
    (h : told backend (moments k) Catalog.viewsQuery = .error e) (t : String)
    (attached : List String) : Breaks backend moments k (resting settings [] t attached) e := by
  refine .of_next fun conn hconn hbroken => ?_
  obtain ⟨log, n, hask⟩ := ask_eq_told hconn hbroken Catalog.viewsQuery Catalog.firsts
  rw [h] at hask
  refine ⟨resting settings [] t attached, conn.used log n, ?_⟩
  have hask : conn.views = (.error e, conn.used log n) := hask
  have hviews : (resting settings [] t attached).settings.includeViews = true := hviews
  rw [next_resting, fromTables, leaveTables, if_pos hviews, hask]

theorem breaks_tables {e : Error}
    (h : told backend (moments k) Catalog.tablesQuery = .error e) :
    Breaks backend moments k { settings } e := by
  refine .of_next fun conn hconn hbroken => ?_
  obtain ⟨log, n, hask⟩ := ask_eq_told hconn hbroken Catalog.tablesQuery fun rows =>
    (Catalog.firsts rows).filter settings.exclusions.allows
  rw [h] at hask
  refine ⟨{ settings }, conn.used log n, ?_⟩
  have hask : conn.tables settings.exclusions = (.error e, conn.used log n) := hask
  have hnext : ({ settings } : Dump).next (moments k).cancelled conn =
      ({ settings } : Dump).fromOpening conn := rfl
  rw [hnext, fromOpening, hask]

/-- The opening lines come once the tables are known. -/
theorem leads_opening {answer : List Row}
    (h : told backend (moments k) Catalog.tablesQuery = .ok answer) :
    Leads backend moments k { settings } (openingLines settings)
      (resting settings (tableNames settings answer) "" []) := by
  let behind : List Line := if settings.transaction then [.beginTransaction] else []
  have hfirst : Leads backend moments k { settings } [.foreignKeys]
      { resting settings (tableNames settings answer) "" [] with
        ready := behind.map Line.text } := by
    refine .line fun conn hconn hbroken => ?_
    obtain ⟨log, n, hask⟩ := ask_eq_told hconn hbroken Catalog.tablesQuery fun rows =>
      (Catalog.firsts rows).filter settings.exclusions.allows
    rw [h] at hask
    refine ⟨conn.used log n, hconn, ?_⟩
    have hask : conn.tables settings.exclusions = (.ok _, conn.used log n) := hask
    have hnext : ({ settings } : Dump).next (moments k).cancelled conn =
        ({ settings } : Dump).fromOpening conn := rfl
    have hbehind : behind.map Line.text =
        if settings.transaction then ["BEGIN TRANSACTION;"] else [] := by
      simp only [behind]
      split <;> rfl
    rw [hnext, fromOpening, hask, hbehind]
    rfl
  exact hfirst.trans (leads_ready behind _ _)

/-- **A dump that fails behind its opening lines** is led to its error. -/
theorem FailsFrom.leads {tables : List String} {lines : List Line} {e : Error}
    (h : FailsFrom settings backend moments k tables lines e) (t : String)
    (attached : List String) :
    ∃ d, Leads backend moments k (resting settings tables t attached) lines d ∧
      Breaks backend moments (k + lines.length) d e := by
  induction h generalizing t attached with
  | definitions h => exact ⟨_, .refl _ _, breaks_definitions h t attached⟩
  | start hanswer h => exact ⟨_, .refl _ _, breaks_start hanswer h t attached⟩
  | rows h => exact ⟨_, h.leads _ t attached, breaks_stopped _ _ _⟩
  | @later k table tables definitions set n lines e h hrest ih =>
    obtain ⟨d, hleads, hbreaks⟩ := ih table []
    refine ⟨d, (h.leads_all tables t attached).trans hleads, ?_⟩
    rwa [List.length_append, ← Nat.add_assoc]
  | views hviews h => exact ⟨_, .refl _ _, breaks_views hviews h t attached⟩

/-- **Each failure is seen**: the lines are followed by the error, and the dump is at its end. -/
theorem Fails.leads {lines : List Line} {e : Error} (h : Fails settings backend moments lines e) :
    ∃ d, Leads backend moments 0 { settings } lines d ∧
      Breaks backend moments lines.length d e := by
  cases h with
  | tables h => exact ⟨_, .refl _ _, breaks_tables h⟩
  | behind hanswer hrest =>
    obtain ⟨d, hleads, hbreaks⟩ := hrest.leads "" []
    have hopening : Leads backend moments 0 { settings } _ _ := leads_opening hanswer
    refine ⟨d, hopening.trans ?_, ?_⟩
    · rwa [Nat.zero_add]
    · rwa [List.length_append]

/-! ## Nothing else is an error -/

/-- Behind the tables and views nothing can fail. -/
theorem next_closing {d : Dump} (hrows : d.rows = none) (hs : d.stage = .closing ∨ d.stage = .done)
    (cancelled : Bool) (conn : Connection) :
    ∃ result d', d.next cancelled conn = (result, d', conn) ∧ (∀ e, result ≠ .error e) ∧
      d'.rows = none ∧ (d'.stage = .closing ∨ d'.stage = .done) := by
  obtain ⟨settings, stage, ready, rows, table, attached⟩ := d
  obtain rfl : rows = none := hrows
  cases ready with
  | cons line ready => exact ⟨_, _, rfl, by simp, rfl, hs⟩
  | nil =>
    rcases hs with hs | hs
    · obtain rfl : stage = .closing := hs
      cases htransaction : settings.transaction with
      | true =>
        refine ⟨.line "COMMIT;", ⟨settings, .done, [], none, table, attached⟩, ?_, by simp, rfl,
          Or.inr rfl⟩
        simp [next, emit?, close, htransaction]
      | false =>
        refine ⟨.done, ⟨settings, .done, [], none, table, attached⟩, ?_, by simp, rfl, Or.inr rfl⟩
        simp [next, emit?, close, htransaction]
    · obtain rfl : stage = .done := hs
      exact ⟨_, _, rfl, by simp, rfl, Or.inr rfl⟩

theorem not_hasError_closing {d : Dump} (hrows : d.rows = none)
    (hs : d.stage = .closing ∨ d.stage = .done) (k : Nat) (conn : Connection) (e : Error) :
    ¬ HasError moments k d conn e := by
  rintro ⟨n, hmem⟩
  induction n generalizing k d conn with
  | zero => simp [requestsAmid] at hmem
  | succ n ih =>
    obtain ⟨result, d', hnext, herror, hrows', hs'⟩ :=
      next_closing hrows hs (moments k).cancelled (conn.amid (moments k))
    rw [requestsAmid, hnext, List.map_cons, List.mem_cons] at hmem
    rcases hmem with hmem | hmem
    · exact herror e hmem.symm
    · exact ih hrows' hs' (k + 1) _ hmem

theorem not_hasError_views {conn : Connection} (hconn : conn.backend = backend)
    (h : settings.includeViews = true →
      ∃ answer, told backend (moments k) Catalog.viewsQuery = .ok answer)
    (t : String) (attached : List String) (e : Error) :
    ¬ HasError moments k (resting settings [] t attached) conn e := by
  have hnext : ∃ result d' conn', (resting settings [] t attached).next (moments k).cancelled
      (conn.amid (moments k)) = (result, d', conn') ∧ (∀ e, result ≠ .error e) ∧
      d'.rows = none ∧ (d'.stage = .closing ∨ d'.stage = .done) := by
    have hclose (c : Connection) : ∃ result d' conn',
        (resting settings [] t attached).close c = (result, d', conn') ∧
        (∀ e, result ≠ .error e) ∧ d'.rows = none ∧ (d'.stage = .closing ∨ d'.stage = .done) := by
      obtain ⟨result, d', hnext, hrest⟩ := @next_closing
        { resting settings [] t attached with stage := .closing } rfl (Or.inl rfl) false c
      exact ⟨result, d', c, hnext, hrest⟩
    rw [next_resting, fromTables, leaveTables]
    cases hviews : settings.includeViews with
    | false =>
      have hviews : (resting settings [] t attached).settings.includeViews = false := hviews
      rw [hviews]
      exact hclose _
    | true =>
      obtain ⟨answer, hanswer⟩ := h hviews
      obtain ⟨log, n, hask⟩ := @ask_eq_told backend _ (moments k) (conn.amid (moments k)) hconn rfl
        Catalog.viewsQuery Catalog.firsts
      rw [hanswer] at hask
      have hask : (conn.amid (moments k)).views =
        (.ok (Catalog.firsts answer), (conn.amid (moments k)).used log n) := hask
      have hviews : (resting settings [] t attached).settings.includeViews = true := hviews
      rw [if_pos hviews, hask]
      cases Catalog.firsts answer with
      | nil => exact hclose _
      | cons view views => exact ⟨_, _, _, rfl, by simp, rfl, Or.inl rfl⟩
  rintro ⟨n, hmem⟩
  obtain ⟨result, d', conn', hnext, herror, hrows, hs⟩ := hnext
  cases n with
  | zero => simp [requestsAmid] at hmem
  | succ n =>
    rw [requestsAmid, hnext, List.map_cons, List.mem_cons] at hmem
    rcases hmem with hmem | hmem
    · exact herror e hmem.symm
    · exact not_hasError_closing hrows hs (k + 1) conn' e ⟨n, hmem⟩

theorem rejection?_of_refused? {table : String} {m : Moment}
    (h : refused? backend m table = none) : (backend (rowsQuery table)).rejection? = none := by
  rw [refused?] at h
  split at h
  · cases h
  · split at h
    · cases h
    · exact Option.map_eq_none_iff.mp h

theorem refusal_of_refused? {table : String} {m : Moment}
    (h : refused? backend m table = none) : (backend (rowsQuery table)).refusal = none :=
  (Reply.rejection?_eq_none_iff.mp (rejection?_of_refused? h)).1

/-- A table whose rows can be asked for has one result set. -/
theorem SingleSet.set {table : String} (h : SingleSet backend table) {m : Moment}
    (hstart : refused? backend m table = none) :
    ∃ set, (backend (rowsQuery table)).sets = [set] := by
  exact h.resolve_left fun hne => hne (rejection?_of_refused? hstart)

/-- An error that comes behind the opening lines comes from one of the failures. -/
theorem FailsFrom.of_hasError {tables : List String} (hsingle : ∀ t ∈ tables, SingleSet backend t)
    {t : String} {attached : List String} {conn : Connection} (hconn : conn.backend = backend)
    {e : Error} (h : HasError moments k (resting settings tables t attached) conn e) :
    ∃ lines, FailsFrom settings backend moments k tables lines e := by
  -- The questions for a table are gone through in their order, and the first that fails is the
  -- failure. If none does, the error is still there behind the table.
  induction tables generalizing k t attached conn with
  | nil =>
    by_contra hnone
    refine not_hasError_views hconn (fun hviews => ?_) t attached e h
    cases htold : told backend (moments k) Catalog.viewsQuery with
    | ok answer => exact ⟨answer, rfl⟩
    | error e' =>
      have herror := (breaks_views hviews htold t attached).eq_of_hasError hconn h
      exact absurd ⟨[], .views hviews (herror ▸ htold)⟩ hnone
  | cons table tables ih =>
    obtain ⟨htable, hsingle⟩ := List.forall_mem_cons.mp hsingle
    cases htold : told backend (moments k) (Catalog.definitionsQuery table) with
    | error e' =>
      have herror := (breaks_definitions htold t attached).eq_of_hasError hconn h
      exact ⟨[], .definitions (herror ▸ htold)⟩
    | ok answer =>
      cases hstart : refused? backend (moments k) table with
      | some e' =>
        have herror := (breaks_start htold hstart t attached).eq_of_hasError hconn h
        exact ⟨[], .start htold (herror ▸ hstart)⟩
      | none =>
        obtain ⟨set, hset⟩ := htable.set hstart
        have hbegun : Begun backend moments k table (.ofPairs (Catalog.pairs answer)) set :=
          ⟨⟨answer, htold, rfl⟩, hstart, hset⟩
        obtain ⟨conn', -, hrows⟩ := (hbegun.leads_own tables t attached).hasError hconn h
        rw [List.length_map] at hrows
        obtain ⟨n, stop, hstreams⟩ := streams_of_hasError hrows
        have hdelivers : Delivers backend moments k table _ set n stop := ⟨hbegun, hstreams⟩
        cases stop with
        | some e' =>
          obtain ⟨conn₁, hconn₁, hstopped⟩ := (hdelivers.leads tables t attached).hasError hconn h
          have herror := (breaks_stopped _ _ _).eq_of_hasError hconn₁ hstopped
          exact ⟨_, .rows (herror ▸ hdelivers)⟩
        | none =>
          obtain ⟨conn₁, hconn₁, hlater⟩ := (hdelivers.leads_all tables t attached).hasError hconn h
          obtain ⟨lines, hlines⟩ := ih hsingle hconn₁ hlater
          exact ⟨_, .later hdelivers hlines⟩

/-- **Nothing else is an error.** -/
theorem Fails.of_hasError (hsingle : SingleSets settings backend) {conn : Connection}
    (hconn : conn.backend = backend) {e : Error} (h : HasError moments 0 { settings } conn e) :
    ∃ lines, Fails settings backend moments lines e := by
  cases htold : told backend (moments 0) Catalog.tablesQuery with
  | error e' =>
    have herror := (breaks_tables htold).eq_of_hasError hconn h
    exact ⟨[], .tables (herror ▸ htold)⟩
  | ok answer =>
    obtain ⟨conn₁, hconn₁, hrest⟩ := (leads_opening htold).hasError hconn h
    rw [Nat.zero_add] at hrest
    obtain ⟨lines, hlines⟩ :=
      FailsFrom.of_hasError (hsingle answer (answer?_of_told htold)) hconn₁ hrest
    exact ⟨_, .behind htold hlines⟩

/-! ## The lines of a dump that fails -/

/-- The end of a script is not among the lines of a table. -/
theorem commit_notMem_linesAround (definitions : TableDefinitions) (table : String)
    (rows : Option (List Row)) : Line.commit ∉ linesAround definitions table rows := by
  cases rows <;> simp [linesAround]

theorem FailsFrom.commit_notMem {tables : List String} {lines : List Line} {e : Error}
    (h : FailsFrom settings backend moments k tables lines e) : Line.commit ∉ lines := by
  induction h with
  | definitions _ | start _ _ | views _ _ => exact List.not_mem_nil
  | rows _ => simp
  | later _ _ ih =>
    rw [List.mem_append]
    rintro (hmem | hmem)
    · exact commit_notMem_linesAround _ _ _ hmem
    · exact ih hmem

theorem Fails.commit_notMem {lines : List Line} {e : Error}
    (h : Fails settings backend moments lines e) : Line.commit ∉ lines := by
  cases h with
  | tables h => exact List.not_mem_nil
  | behind hanswer hrest =>
    rw [List.mem_append]
    rintro (hmem | hmem)
    · rw [openingLines] at hmem
      cases htransaction : settings.transaction <;> simp [htransaction] at hmem
    · exact hrest.commit_notMem hmem

/-- The rows of the only result set of a reply. -/
theorem all?_of_firstRows? {reply : Reply} {set : ResultSet} (hset : reply.sets = [set])
    {rows? : Option (List Row)} (h : reply.firstRows? = some rows?) :
    ∃ rows, rows? = some rows ∧ set.rows.all? = some rows := by
  rw [Reply.firstRows?, hset] at h
  cases hrefusal : reply.refusal with
  | some message => simp [hrefusal] at h
  | none =>
    rw [hrefusal] at h
    obtain ⟨rows, hrows, rfl⟩ := Option.map_eq_some_iff.mp h
    refine ⟨rows, rfl, ?_⟩
    rw [Rows.within?] at hrows
    split at hrows
    · cases hrows
    · exact hrows

section Script

variable {backend' : Backend} {table : String} {definitions : TableDefinitions} {set : ResultSet}

/-- What a begun table has in the script of a database that does not fail. -/
theorem Begun.tableLines?_eq (h : Begun backend moments k table definitions set)
    (hmends : Mends backend backend') :
    tableLines? backend' table =
      (backend' (rowsQuery table)).firstRows?.map (linesAround definitions table) := by
  obtain ⟨answer, htold, rfl⟩ := h.definitions
  have hanswer := hmends.questions _ _ (answer?_of_told htold)
  rw [Dump.tableLines?, hanswer, Option.bind_some, (verbatim_rowsQuery table).sql]

/-- A table that is through has the lines that it has in the script. -/
theorem Delivers.tableLines?_eq {n : Nat}
    (h : Delivers backend moments k table definitions set n none)
    (hmends : Mends backend backend') :
    tableLines? backend' table = some (linesAround definitions table (some (set.rows.take n))) := by
  obtain ⟨hbegun, hstreams⟩ := h
  rcases hstreams.stop with ⟨hsize, hfailure⟩ | ⟨-, -, hstop⟩
  · have hrefusal := refusal_of_refused? hbegun.started
    have hfailure : (backend (rowsQuery table)).failure = none := by
      simpa using hfailure.symm
    have hrest : (Remainder.mk [] none).error? = none := rfl
    rw [hbegun.tableLines?_eq hmends, hmends.tables table hrefusal hfailure, Reply.firstRows?,
      hrefusal, hbegun.set, hfailure]
    simp only [Rows.within?, hrest, Rows.all?_of_size hsize]
    rfl
  · cases hstop

/-- The rows of a table that breaks off are the first ones that it has in the script. -/
theorem Delivers.isPrefix {n : Nat} {stop : Option Error} {lines : List Line}
    (h : Delivers backend moments k table definitions set n stop) (hmends : Mends backend backend')
    (hlines : tableLines? backend' table = some lines) :
    definitions.own.toList.map .definition ++ (set.rows.take n).map (.row table) <+: lines := by
  rw [h.1.tableLines?_eq hmends, Option.map_eq_some_iff] at hlines
  obtain ⟨rows?, hfirst, rfl⟩ := hlines
  obtain ⟨set', hset', htake⟩ :=
    hmends.rows table set (refusal_of_refused? h.1.started) h.1.set
  obtain ⟨rows, rfl, hall⟩ := all?_of_firstRows? hset' hfirst
  obtain ⟨rest, rfl⟩ := htake rows hall n
  refine ⟨rest.map (.row table) ++ definitions.attached.map .definition, ?_⟩
  simp [linesAround]

/-- What is handed over behind the opening lines is the beginning of what stands there in the
script. -/
theorem FailsFrom.isPrefix {tables : List String} {lines : List Line} {e : Error}
    (h : FailsFrom settings backend moments k tables lines e) (hmends : Mends backend backend')
    {all : List Line} (hall : tablesLines? backend' tables = some all) : lines <+: all := by
  induction h generalizing all with
  | definitions _ | start _ _ | views _ _ => exact List.nil_prefix
  | rows h =>
    rw [tablesLines?, Option.map₂_eq_some_iff] at hall
    obtain ⟨first, more, hfirst, -, rfl⟩ := hall
    exact (h.isPrefix hmends hfirst).trans (List.prefix_append first more)
  | later h hrest ih =>
    rw [tablesLines?, Option.map₂_eq_some_iff] at hall
    obtain ⟨first, more, hfirst, hmore, rfl⟩ := hall
    obtain rfl := Option.some.inj ((h.tableLines?_eq hmends).symm.trans hfirst)
    exact (List.prefix_append_right_inj _).mpr (ih hmore)

/-- **The lines of a dump that fails** are the first ones of what there is without failures. -/
theorem Fails.isPrefix {lines script : List Line} {e : Error}
    (h : Fails settings backend moments lines e) (hmends : Mends backend backend')
    (hscript : script? settings backend' = some script) : lines <+: script := by
  cases h with
  | tables h => exact List.nil_prefix
  | behind htold hrest =>
    have hanswer := hmends.questions _ _ (answer?_of_told htold)
    rw [script?, hanswer, Option.bind_some, Option.map_eq_some_iff] at hscript
    obtain ⟨behind, hbehind, rfl⟩ := hscript
    rw [Option.map₂_eq_some_iff] at hbehind
    obtain ⟨tables, views, htables, -, rfl⟩ := hbehind
    refine (List.prefix_append_right_inj _).mpr ?_
    exact (hrest.isPrefix hmends htables).trans (List.prefix_append tables views)

end Script

/-! ## Cancelled requests -/

/-- A question to the catalog is no query for rows. -/
theorem rowsQuery_ne_question {sql : String} (h : Catalog.IsQuestion sql) (table : String) :
    rowsQuery table ≠ sql := by
  have hstar := Catalog.letter_rowsQuery table
  obtain rfl | rfl | ⟨t, rfl⟩ := h
  · exact Catalog.ne_of_letter hstar Catalog.letter_tablesQuery (by decide)
  · exact Catalog.ne_of_letter hstar Catalog.letter_viewsQuery (by decide)
  · exact Catalog.ne_of_letter hstar (Catalog.letter_definitionsQuery t) (by decide)

/-- Nothing was run in between but questions to the catalog. -/
def OnlyAsks (conn conn' : Connection) : Prop :=
  ∃ log, conn'.log = conn.log ++ log ∧ ∀ sql ∈ log, Catalog.IsQuestion sql

namespace OnlyAsks

variable {a b c : Connection}

theorem of_log_eq (h : b.log = a.log) : OnlyAsks a b := ⟨[], by rw [h, List.append_nil], by simp⟩

theorem trans (h : OnlyAsks a b) (h' : OnlyAsks b c) : OnlyAsks a c := by
  obtain ⟨log, hlog, hsql⟩ := h
  obtain ⟨log', hlog', hsql'⟩ := h'
  refine ⟨log ++ log', by rw [hlog', hlog, List.append_assoc], fun sql hmem => ?_⟩
  rcases List.mem_append.mp hmem with hmem | hmem
  · exact hsql sql hmem
  · exact hsql' sql hmem

end OnlyAsks

section Cancelled

variable {d : Dump} {conn conn₁ : Connection}

theorem onlyAsks_ask {α : Type} {sql : String} (hsql : Catalog.IsQuestion sql)
    {read : List Row → α} {result : Except Error α} (h : conn.ask sql read = (result, conn₁)) :
    OnlyAsks conn conn₁ := by
  have hverbatim : Statement.Verbatim sql := by
    obtain rfl | rfl | ⟨table, rfl⟩ := hsql
    · exact Catalog.verbatim_tablesQuery
    · exact Catalog.verbatim_viewsQuery
    · exact Catalog.verbatim_definitionsQuery table
  obtain ⟨rows, log, n, hlog, hquery⟩ := conn.query_uses sql
  have htodo : (Batch.start [Statement.ofText sql] conn).todo = [sql] := by
    simp [Batch.start, hverbatim.isBlank, hverbatim.sql]
  have hconn : conn.used log n = conn₁ := by
    rw [Connection.ask, hquery conn (.refl conn)] at h
    cases rows <;> exact congrArg Prod.snd h
  rw [htodo] at hlog
  refine ⟨log, by rw [← hconn]; rfl, fun sql' hmem => ?_⟩
  rw [List.mem_singleton.mp (hlog.subset hmem)]
  exact hsql

theorem onlyAsks_begin {table : String} {result : Except Error Dump}
    (h : d.begin true table conn = (result, conn₁)) : OnlyAsks conn conn₁ := by
  rw [begin] at h
  rcases hask : conn.tableDefinitions table with ⟨_ | definitions, conn₂⟩
  · rw [hask] at h
    obtain rfl : conn₂ = conn₁ := congrArg Prod.snd h
    exact onlyAsks_ask (Or.inr (Or.inr ⟨table, rfl⟩)) hask
  · obtain ⟨answer, b, log, n, -, hnone, hnext⟩ := Batch.next_uses true
      (Batch.start [Statement.ofText (rowsQuery table)] conn₂) conn₂.backend
    -- The query for the rows is not run any more.
    have hrest : OnlyAsks conn₂ (conn₂.used log n) := by
      refine .of_log_eq ?_
      rw [hnone rfl, Connection.used, List.append_nil]
    have hconn : conn₂.used log n = conn₁ := by
      simp only [hask, hnext conn₂ rfl] at h
      cases answer <;> exact congrArg Prod.snd h
    rw [← hconn]
    exact (onlyAsks_ask (Or.inr (Or.inr ⟨table, rfl⟩)) hask).trans hrest

theorem log_close (d : Dump) (conn : Connection) : (d.close conn).2.2.log = conn.log := by
  rw [close]
  split <;> rfl

theorem onlyAsks_leaveTables (d : Dump) (conn : Connection) :
    OnlyAsks conn (d.leaveTables conn).2.2 := by
  rw [leaveTables]
  split
  · rcases hask : conn.views with ⟨_ | _ | ⟨view, views⟩, conn₂⟩
    · exact onlyAsks_ask (Or.inr (Or.inl rfl)) hask
    · exact (onlyAsks_ask (Or.inr (Or.inl rfl)) hask).trans (.of_log_eq (log_close d conn₂))
    · exact onlyAsks_ask (Or.inr (Or.inl rfl)) hask
  · exact .of_log_eq (log_close d conn)

theorem onlyAsks_emit? {result : Option LineResult} {d₁ : Dump}
    (h : d.emit? true conn = (result, d₁, conn₁)) : OnlyAsks conn conn₁ := by
  obtain ⟨_, _, n, hemit⟩ := d.emit?_uses true
  obtain rfl : conn.used [] n = conn₁ := congrArg (·.2.2) ((hemit conn).symm.trans h)
  exact .of_log_eq (List.append_nil _)

theorem onlyAsks_fromTables (d : Dump) (tables : List String) (conn : Connection) :
    OnlyAsks conn (d.fromTables true tables conn).2.2 := by
  induction tables generalizing d conn with
  | nil => exact onlyAsks_leaveTables d conn
  | cons table tables ih =>
    rw [fromTables]
    rcases hbegin : d.begin true table conn with ⟨_ | d₂, conn₂⟩
    · exact onlyAsks_begin hbegin
    · have hasked := onlyAsks_begin hbegin
      rcases hemit : emit? true { d₂ with stage := .tables tables } conn₂ with
        ⟨_ | result, d₃, conn₃⟩
      · simp only [hemit]
        exact (hasked.trans (onlyAsks_emit? hemit)).trans (ih d₃ conn₃)
      · simp only [hemit]
        exact hasked.trans (onlyAsks_emit? hemit)

/-- **A cancelled dump** asks nothing but the catalog. -/
theorem onlyAsks_next (d : Dump) (conn : Connection) : OnlyAsks conn (d.next true conn).2.2 := by
  rw [next]
  rcases hemit : d.emit? true conn with ⟨_ | result, d₁, conn₁⟩
  · refine (onlyAsks_emit? hemit).trans ?_
    simp only
    cases d₁.stage with
    | opening =>
      simp only [fromOpening]
      rcases hask : conn₁.tables d₁.settings.exclusions with ⟨_ | names, conn₂⟩ <;>
        exact onlyAsks_ask (Or.inl rfl) hask
    | tables names => exact onlyAsks_fromTables d₁ names conn₁
    | closing => exact .of_log_eq (log_close d₁ conn₁)
    | done => exact .of_log_eq rfl
  · exact onlyAsks_emit? hemit

end Cancelled

/-! ## What a failure comes to -/

/-- What is promised of a dump that fails, whatever happens while it is read. -/
structure BreaksOff (settings : DumpSettings) (conn : Connection) (moments : Nat → Moment) :
    Prop where
  /-- A failure is seen: the lines, one error, and nothing more, while nothing is run. -/
  answers : ∀ lines e, Fails settings conn.backend moments lines e →
    ∀ n, ∃ (told : List (LineResult × List String)) (log : List String),
      told.map Prod.fst = lines.map (.line ·.text) ∧
      requestsAmid moments (lines.length + 1 + n) 0 { settings } conn =
        told ++ (.error e, log) :: List.replicate n (.done, log)
  /-- The lines are the first ones of what there is without failures. -/
  script : ∀ lines e, Fails settings conn.backend moments lines e →
    ∀ backend' script, Mends conn.backend backend' → script? settings backend' = some script →
      lines <+: script
  /-- They do not come to its end. -/
  commit : ∀ lines e, Fails settings conn.backend moments lines e → Line.commit ∉ lines
  /-- An error is only seen if there is a failure. -/
  errors : ∀ n e, .error e ∈ (requestsAmid moments n 0 { settings } conn).map Prod.fst →
    ∃ lines, Fails settings conn.backend moments lines e
  /-- Once the dump was cancelled no query for rows is started, in whatever state it is. -/
  cancelled : ∀ (d : Dump) (c : Connection) (log : List String),
    (d.next true c).2.2.log = c.log ++ log → ∀ table, rowsQuery table ∉ log

/-- **A dump that fails** breaks off with an error behind the lines that were asked for in vain. -/
theorem breaksOff (settings : DumpSettings) (conn : Connection) (moments : Nat → Moment)
    (h : SingleSets settings conn.backend) : BreaksOff settings conn moments where
  answers lines e hfails n := by
    obtain ⟨d, hleads, hbreaks⟩ := hfails.leads
    exact hleads.breaks (by rwa [Nat.zero_add]) rfl n
  script lines e hfails _ _ hmends hscript := hfails.isPrefix hmends hscript
  commit lines e hfails := hfails.commit_notMem
  errors n e hmem := Fails.of_hasError h rfl ⟨n, hmem⟩
  cancelled d c log hlog table hmem := by
    obtain ⟨log', hlog', hquestion⟩ := onlyAsks_next d c
    obtain rfl : log = log' := List.append_cancel_left (hlog.symm.trans hlog')
    exact rowsQuery_ne_question (hquestion _ hmem) table rfl

/-- The dump is cancelled before its fourth line is asked for. -/
def cancelledLate (k : Nat) : Moment := { cancelled := decide (3 ≤ k) }

theorem rowsQuery_indexed : ∃ columns, indexedDatabase.backend (rowsQuery "t") =
    { sets := [⟨columns, .finite [[.text "x"], [.null]]⟩] } := by
  have htable : (⟨.table, "t", "t", some "CREATE TABLE t(a)"⟩ : Catalog.Entry) ∈ indexed :=
    List.mem_cons_self
  obtain ⟨columns, hreply⟩ :=
    Catalog.yields_rowsQuery indexed (fun _ => [[.text "x"], [.null]]) htable
  exact ⟨columns, hreply⟩

theorem begun_indexed : ∃ columns, Begun indexedDatabase.backend cancelledLate 2 "t"
    ⟨some "CREATE TABLE t(a)", ["CREATE INDEX i ON t(a)"]⟩
    ⟨columns, .finite [[.text "x"], [.null]]⟩ := by
  obtain ⟨columns, hreply⟩ := rowsQuery_indexed
  have hmem : "t" ∈ tableNames {} indexedReplies.tables := by
    rw [tableNames_indexed]
    exact List.mem_singleton_self "t"
  have htold : told indexedDatabase.backend (cancelledLate 2) (Catalog.definitionsQuery "t") = _ :=
    told_of_answer? rfl (Catalog.verbatim_definitionsQuery "t")
      (answered_indexed.definitions "t" hmem)
  refine ⟨columns, ⟨_, htold, by decide⟩, ?_, by rw [hreply]⟩
  rw [refused?, hreply]
  rfl

/-- The first row was on its way and is still handed over. The second one is not fetched, and there
is neither the index nor the end of the script. -/
theorem breaksOff_indexed :
    SingleSets {} indexedDatabase.backend ∧ BreaksOff {} indexedDatabase cancelledLate ∧
      Fails {} indexedDatabase.backend cancelledLate
        [.foreignKeys, .beginTransaction, .definition "CREATE TABLE t(a)", .row "t" [.text "x"]]
        .cancelled ∧
      ∀ script, script? {} indexedDatabase.backend = some script →
        [.foreignKeys, .beginTransaction, .definition "CREATE TABLE t(a)", .row "t" [.text "x"]] <+:
          script := by
  have hsingle : SingleSets {} indexedDatabase.backend := by
    intro answer hanswer table htable
    obtain rfl := Option.some.inj (answered_indexed.tables.symm.trans hanswer)
    rw [tableNames_indexed, List.mem_singleton] at htable
    obtain ⟨columns, hreply⟩ := rowsQuery_indexed
    exact Or.inr ⟨⟨columns, .finite [[.text "x"], [.null]]⟩, by rw [htable, hreply]⟩
  obtain ⟨columns, hbegun⟩ := begun_indexed
  have hstreams : Streams cancelledLate (indexedDatabase.backend (rowsQuery "t")).failure 3
      (.finite [[.text "x"], [.null]]) 1 (some .cancelled) :=
    ⟨fun j hj => by omega, Or.inr ⟨by decide, rfl, rfl⟩⟩
  have hrest : FailsFrom {} indexedDatabase.backend cancelledLate 2 ["t"] _ .cancelled :=
    .rows ⟨hbegun, hstreams⟩
  rw [← tableNames_indexed] at hrest
  have htold : told indexedDatabase.backend (cancelledLate 0) Catalog.tablesQuery =
      .ok indexedReplies.tables :=
    told_of_answer? rfl Catalog.verbatim_tablesQuery answered_indexed.tables
  have hfails := Fails.behind htold hrest
  have hbreaks := breaksOff {} indexedDatabase cancelledLate hsingle
  exact ⟨hsingle, hbreaks, hfails, fun script => hbreaks.script _ _ hfails _ script (.refl _)⟩

end Dump

end SqlConsole
