import SqlConsole.Proofs.Dump.Answers
import SqlConsole.Proofs.Dump.Use
import SqlConsole.Proofs.Output.Course

/-!
# The extent of a dump

A dump is read within a bound, `Dump.reach`, which is worked out from the database before a line is
read. This module shows that the bound is never met by a dump that comes to an end
(`Dump.Finishes.write_eq_play`): with each line that is handed over, fewer lines may be left
(`Dump.extent_next`).

Rows without an end are counted as if there were few of them, so the count may be too small. But
such rows are never left behind, and a dump that comes upon them has no end
(`Dump.Finishes.bounded`). The same holds for a question to the catalog, whose answer is read to its
end before it counts. That is why `Dump.Finishes` asks of each question that was answered that its
answer has an end.
-/

namespace SqlConsole

/-- Result sets that come to an end are counted. -/
theorem ResultSet.total_eq_rowsIn {backend : Backend} {sql : String} (h : (backend sql).Finite) :
    total (backend sql).sets = Dump.rowsIn 0 backend sql := by
  have hall (sets : List ResultSet) (hsets : ∀ set ∈ sets, set.rows.size ≠ ⊤) :
      total sets = (sets.foldr (fun set n => set.rows.reach 0 + n) 0 : Nat) := by
    induction sets with
    | nil => rfl
    | cons set sets ih =>
      obtain ⟨hset, hsets⟩ := List.forall_mem_cons.mp hsets
      rw [List.foldr_cons, Nat.cast_add, ← ih hsets, ← Rows.size_eq_reach hset]
      rfl
  exact hall (backend sql).sets h

namespace Connection

/-- **An answer** has no more rows than the database has for it. -/
theorem length_query_le {conn conn₁ : Connection} {sql : String} {rows : List Row}
    (hsql : Statement.Verbatim sql) (h : conn.query sql = (.ok rows, conn₁))
    (hfinite : (conn.backend sql).Finite) : rows.length ≤ Dump.rowsIn 0 conn.backend sql := by
  have hrows : (rows.length : ℕ∞) ≤ _ := Batch.length_collect_le h
  have htotal : (Batch.start [Statement.ofText sql] conn).total conn.backend =
      ResultSet.total (conn.backend sql).sets := by
    cases hbroken : conn.broken <;>
      simp [Batch.total, Batch.start, hbroken, hsql.isBlank, hsql.sql, Stage.total]
  rw [htotal, ResultSet.total_eq_rowsIn hfinite] at hrows
  exact_mod_cast hrows

/-- What a question of the catalog was answered with, and that it was run. -/
theorem ask_ok {α : Type} {conn conn₁ : Connection} {sql : String} {read : List Row → α} {a : α}
    (hsql : Statement.Verbatim sql) (h : conn.ask sql read = (.ok a, conn₁)) :
    ∃ rows n, a = read rows ∧ conn₁ = conn.used [sql] n ∧
      ((conn.backend sql).Finite → rows.length ≤ Dump.rowsIn 0 conn.backend sql) := by
  rw [ask] at h
  rcases hquery : conn.query sql with ⟨_ | rows, conn₂⟩
  · simp [hquery] at h
  · obtain ⟨rfl, rfl⟩ : read rows = a ∧ conn₂ = conn₁ := by simpa [hquery] using h
    have hanswer : conn.broken = false ∧ conn.backend.answer? sql = some rows := by
      obtain ⟨rows', _, hq, hsome, -⟩ | ⟨e, _, hq, -, -⟩ := conn.query_cases sql
      · rw [hquery] at hq
        obtain rfl : rows = rows' := by simpa using congrArg Prod.fst hq
        refine ⟨?_, hsome⟩
        cases hbroken : conn.broken with
        | false => rfl
        | true =>
          have herror := query_broken hbroken sql
          simp [hquery] at herror
      · simp [hquery] at hq
    have hused := query_of_answer? hanswer.1 hsql hanswer.2
    rw [hquery] at hused
    exact ⟨rows, _, rfl, congrArg Prod.snd hused, length_query_le hsql hquery⟩

end Connection

/-! ## Dumps that come to an end -/

namespace Catalog

/-- A question that a dump asks the catalog. -/
def IsQuestion (sql : String) : Prop :=
  sql = tablesQuery ∨ sql = viewsQuery ∨ ∃ table, sql = definitionsQuery table

/-- Each question to the catalog that was asked in between has an answer that ends. -/
def Heard (conn conn₁ : Connection) : Prop :=
  ∀ before sql behind, conn.log <+: before → conn₁.log = before ++ sql :: behind →
    IsQuestion sql → (conn.backend sql).Finite

variable {a b c : Connection}

theorem Heard.of_le (h : Heard a c) (hbackend : b.backend = a.backend) (hlog : a.log <+: b.log) :
    Heard b c := by
  intro before sql behind hbefore hafter hsql
  rw [hbackend]
  exact h before sql behind (hlog.trans hbefore) hafter hsql

theorem Heard.question (h : Heard a b) {sql : String} (hsql : IsQuestion sql)
    (hlog : a.log ++ [sql] <+: b.log) : (a.backend sql).Finite := by
  obtain ⟨behind, hbehind⟩ := hlog
  refine h a.log sql behind (List.prefix_refl _) ?_ hsql
  rw [← hbehind, List.append_assoc]
  rfl

end Catalog

namespace Dump

/-- **A dump comes to an end**: some request is not answered with a line, and each question that was
asked for the lines until then has an answer that ends. -/
inductive Finishes (cancelled : Bool) : Dump → Connection → Prop
  | last {d : Dump} {conn : Connection} (h : ∀ text, (d.next cancelled conn).1 ≠ .line text) :
    Finishes cancelled d conn
  | line {d d₁ : Dump} {conn conn₁ : Connection} {text : String}
    (hnext : d.next cancelled conn = (.line text, d₁, conn₁))
    (hheard : Catalog.Heard conn conn₁) (hrest : Finishes cancelled d₁ conn₁) :
    Finishes cancelled d conn

/-- The rows of the table at hand come to an end. -/
def Bounded (cancelled : Bool) (d : Dump) : Prop := ∀ b, d.rows = some b → b.Bounded cancelled

/-- The number of lines that may be left of a table which was not asked for. -/
def tableReach (patience : Nat) (backend : Backend) (table : String) : Nat :=
  rowsIn 0 backend (Catalog.definitionsQuery table) +
    rowsIn patience backend (Statement.ofText (rowsQuery table)).sql + 2

/-- The number of lines that may be left of several tables. -/
def tablesReach (patience : Nat) (backend : Backend) (names : List String) : Nat :=
  names.foldr (fun table n => tableReach patience backend table + n) 0

/-- The number of lines that may be left of what was asked for. -/
def held (patience : Nat) (d : Dump) : Nat :=
  d.ready.length + (d.rows.map (·.reach patience)).getD 0 + d.attached.length

/-- The number of lines that may be left of what was not asked for. -/
def unheld (patience : Nat) (settings : DumpSettings) (conn : Connection) : Stage → Nat
  | .opening =>
    (match (conn.tables settings.exclusions).1 with
      | .ok names => tablesReach patience conn.backend names
      | .error _ => 0) + rowsIn 0 conn.backend Catalog.viewsQuery + 3
  | .tables names =>
    tablesReach patience conn.backend names + rowsIn 0 conn.backend Catalog.viewsQuery + 1
  | .closing => 1
  | .done => 0

/-- The number of lines that may be left. -/
def extent (patience : Nat) (d : Dump) (conn : Connection) : Nat :=
  d.held patience + unheld patience d.settings conn d.stage

theorem extent_lt_reach (patience : Nat) (d : Dump) (conn : Connection) :
    d.extent patience conn < d.reach patience conn := by
  have htables (names : List String) : tablesReach patience conn.backend names =
      names.foldr (fun table n => rowsIn 0 conn.backend (Catalog.definitionsQuery table) +
        rowsIn patience conn.backend (Statement.ofText (rowsQuery table)).sql + 2 + n) 0 := rfl
  rw [extent, held, reach]
  cases d.stage with
  | opening =>
    rw [unheld]
    cases (conn.tables d.settings.exclusions).1 <;> simp only [htables, List.foldr_nil] <;> omega
  | tables names =>
    simp only [unheld, htables]
    omega
  | closing | done =>
    simp only [unheld, List.foldr_nil]
    omega

variable {cancelled : Bool} {d d₁ : Dump} {conn conn₁ : Connection}

/-- A line that needs no new question is one of those that were left. -/
theorem emit?_held {result : Option LineResult}
    (h : d.emit? cancelled conn = (result, d₁, conn₁)) (patience : Nat) :
    (∃ text, result = some (.line text) ∧ d₁.stage = d.stage ∧ d₁.settings = d.settings ∧
      (d₁.Bounded cancelled →
        d.Bounded cancelled ∧ d₁.held patience + 1 ≤ d.held patience)) ∨
    (∃ e, result = some (.error e) ∧ d.Bounded cancelled) ∨
    (result = none ∧ d₁ = { d with ready := [], rows := none } ∧ d.Bounded cancelled) := by
  obtain ⟨settings, stage, ready, rows, table, attached⟩ := d
  cases ready with
  | cons line ready =>
    obtain ⟨rfl, rfl, -⟩ : some (.line line) = result ∧
        (⟨settings, stage, ready, rows, table, attached⟩ : Dump) = d₁ ∧ conn = conn₁ := by
      simpa [emit?] using h
    refine Or.inl ⟨line, rfl, rfl, rfl, fun hbounded => ⟨hbounded, ?_⟩⟩
    simp only [held, List.length_cons]
    omega
  | nil =>
    cases rows with
    | none =>
      obtain ⟨rfl, rfl, -⟩ : none = result ∧
          (⟨settings, stage, [], none, table, attached⟩ : Dump) = d₁ ∧ conn = conn₁ := by
        simpa [emit?] using h
      exact Or.inr (Or.inr ⟨rfl, rfl, by simp [Bounded]⟩)
    | some b =>
      have hbounded {stop : RowResult} {b₁ : Batch} {conn₂ : Connection}
          (hrow : b.row cancelled conn = (stop, b₁, conn₂))
          (hrest : (∀ cells, stop ≠ .row cells) ∨ b₁.Bounded cancelled) :
          (⟨settings, stage, [], some b, table, attached⟩ : Dump).Bounded cancelled := by
        rintro _ ⟨⟩
        exact Batch.bounded_of_row hrow hrest
      rcases hrow : b.row cancelled conn with ⟨stop, b₁, conn₂⟩
      cases stop with
      | row cells =>
        obtain ⟨rfl, rfl, -⟩ : some (.line (insertLine table cells)) = result ∧
            (⟨settings, stage, [], some b₁, table, attached⟩ : Dump) = d₁ ∧ conn₂ = conn₁ := by
          simpa [emit?, hrow] using h
        refine Or.inl ⟨_, rfl, rfl, rfl, fun hrest => ⟨hbounded hrow (Or.inr (hrest b₁ rfl)), ?_⟩⟩
        have hreach := Batch.reach_row hrow (hrest b₁ rfl) patience
        simp only [held, Option.map_some, Option.getD_some]
        omega
      | error e =>
        obtain ⟨rfl, -⟩ : some (.error e) = result ∧ _ = d₁ ∧ conn₂ = conn₁ := by
          simpa [emit?, hrow] using h
        exact Or.inr (Or.inl ⟨e, rfl, hbounded hrow (Or.inl (by simp))⟩)
      | done =>
        cases attached with
        | nil =>
          obtain ⟨rfl, rfl, -⟩ : none = result ∧
              (⟨settings, stage, [], none, table, []⟩ : Dump) = d₁ ∧ conn₂ = conn₁ := by
            simpa [emit?, hrow] using h
          exact Or.inr (Or.inr ⟨rfl, rfl, hbounded hrow (Or.inl (by simp))⟩)
        | cons line attached =>
          obtain ⟨rfl, rfl, -⟩ : some (.line line) = result ∧
              (⟨settings, stage, attached, none, table, []⟩ : Dump) = d₁ ∧ conn₂ = conn₁ := by
            simpa [emit?, hrow] using h
          refine Or.inl ⟨line, rfl, rfl, rfl, fun _ => ⟨hbounded hrow (Or.inl (by simp)), ?_⟩⟩
          simp only [held, Option.map_none, Option.getD_none, List.length_cons, List.length_nil]
          omega

/-- The rows of a table that is begun, and what is behind them. -/
theorem reach_next_start {sql : String} (hsql : Statement.Verbatim sql) {columns : List String}
    {b : Batch}
    (h : (Batch.start [Statement.ofText sql] conn).next cancelled conn =
      (.columns columns, b, conn₁))
    (hbounded : b.Bounded cancelled) (patience : Nat) :
    b.reach patience ≤ rowsIn patience conn.backend sql + 2 := by
  have hstart : Batch.start [Statement.ofText sql] conn =
      ⟨[sql], if conn.broken then .refused .brokenConnection else .idle, false⟩ := by
    simp [Batch.start, hsql.isBlank, hsql.sql]
  rw [hstart] at h
  cases hbroken : conn.broken with
  | true => simp [hbroken, Batch.next, Batch.dropRows] at h
  | false =>
    have h : Batch.advance cancelled [sql] conn = (.columns columns, b, conn₁) := by
      simpa [hbroken, Batch.next, Batch.dropRows] using h
    cases cancelled with
    | true => simp [Batch.advance] at h
    | false =>
      obtain ⟨message, -, hadvance⟩ | ⟨set, sets, -, hs, hadvance⟩ | ⟨-, -, hadvance⟩ :=
        Batch.advance_cases [] sql conn <;> rw [hadvance] at h
      · cases h
      · obtain rfl : (Batch.fetch false _ _ _ _).1 = b := congrArg (·.2.1) h
        have hfetch := Batch.reach_fetch_le hbounded patience
        have hset : set.rows.reach patience ≤ rowsIn patience conn.backend sql := by
          rw [rowsIn, hs, List.foldr_cons]
          exact Nat.le_add_right _ _
        omega
      · cases h

/-- The definitions that are taken from an answer. -/
theorem length_ofPairs_le (rows : List Row) :
    (TableDefinitions.ofPairs (Catalog.pairs rows)).own.toList.length +
      (TableDefinitions.ofPairs (Catalog.pairs rows)).attached.length ≤ rows.length := by
  have hadd (pairs : List (String × String)) (definitions : TableDefinitions) :
      (pairs.foldl (fun d p => d.add p.1 p.2) definitions).own.toList.length +
        (pairs.foldl (fun d p => d.add p.1 p.2) definitions).attached.length ≤
      definitions.own.toList.length + definitions.attached.length + pairs.length := by
    induction pairs generalizing definitions with
    | nil => exact Nat.le_refl _
    | cons pair pairs ih =>
      have hrest := ih (definitions.add pair.1 pair.2)
      have hfirst : (definitions.add pair.1 pair.2).own.toList.length +
          (definitions.add pair.1 pair.2).attached.length ≤
          definitions.own.toList.length + definitions.attached.length + 1 := by
        rw [TableDefinitions.add]
        split
        · cases definitions.own <;> simp
          omega
        · simp
          omega
      simp only [List.foldl_cons, List.length_cons]
      omega
  have hpairs : (Catalog.pairs rows).length ≤ rows.length := List.length_filterMap_le _ _
  have hall := hadd (Catalog.pairs rows) {}
  simp only [TableDefinitions.ofPairs]
  exact hall.trans (by simpa using hpairs)

/-- **A table that is begun** has no more lines than are allowed for. -/
theorem held_begin {table : String} (hrows : d.rows = none)
    (h : d.begin cancelled table conn = (.ok d₁, conn₁)) :
    d₁.stage = d.stage ∧ d₁.settings = d.settings ∧
      (∃ log n, conn₁ = conn.used (Catalog.definitionsQuery table :: log) n) ∧
      ∀ patience, (conn.backend (Catalog.definitionsQuery table)).Finite → d₁.Bounded cancelled →
        d₁.held patience ≤ tableReach patience conn.backend table := by
  rcases hask : conn.tableDefinitions table with ⟨_ | definitions, conn₂⟩
  · simp [begin, hask] at h
  · obtain ⟨answer, n, rfl, rfl, hlength⟩ :=
      Connection.ask_ok (Catalog.verbatim_definitionsQuery table) hask
    have hsql := verbatim_rowsQuery table
    obtain ⟨result, b, log, m, -, -, hnext⟩ := Batch.next_uses cancelled
      (Batch.start [Statement.ofText (rowsQuery table)]
        (conn.used [Catalog.definitionsQuery table] n)) conn.backend
    have hnext := hnext (conn.used [Catalog.definitionsQuery table] n) rfl
    have hdefinitions := length_ofPairs_le answer
    have hlog : (conn.used [Catalog.definitionsQuery table] n).used log m =
        conn.used (Catalog.definitionsQuery table :: log) (n + m) := Connection.used_used _ _ _ _ _
    rw [begin, hask] at h
    simp only [hnext] at h
    cases result with
    | columns columns =>
      obtain ⟨hd, rfl⟩ := Prod.mk.inj h
      obtain rfl := Except.ok.inj hd
      refine ⟨rfl, rfl, ⟨log, n + m, hlog⟩, fun patience hfinite hbounded => ?_⟩
      have hreach := reach_next_start hsql hnext
        ((b.bounded_abandon cancelled).mp (hbounded _ rfl)) patience
      have hanswer := hlength hfinite
      rw [Connection.used_backend] at hreach
      simp only [held, tableReach, hsql.sql, Option.map_some, Option.getD_some, b.reach_abandon,
        List.length_map]
      omega
    | error e => cases h
    | done =>
      obtain ⟨hd, rfl⟩ := Prod.mk.inj h
      obtain rfl := Except.ok.inj hd
      refine ⟨rfl, rfl, ⟨log, n + m, hlog⟩, fun patience hfinite hbounded => ?_⟩
      have hanswer := hlength hfinite
      simp only [held, tableReach, hrows, Option.map_none, Option.getD_none, List.length_map]
      omega

theorem extent_close {text : String} (h : d.close conn = (.line text, d₁, conn₁)) (patience : Nat) :
    d₁.extent patience conn₁ ≤ d.held patience := by
  rw [close] at h
  split at h
  · obtain rfl : { d with stage := .done } = d₁ := congrArg (·.2.1) h
    exact Nat.le_refl _
  · cases h

/-- The first line behind the tables is one of the views, or the last one. -/
theorem extent_leaveTables {text : String} (h : d.leaveTables conn = (.line text, d₁, conn₁))
    (hheard : Catalog.Heard conn conn₁) (patience : Nat) :
    d₁.extent patience conn₁ + 1 ≤
      d.held patience + rowsIn 0 conn.backend Catalog.viewsQuery + 1 := by
  rw [leaveTables] at h
  split at h
  case isFalse =>
    have hlast := extent_close h patience
    omega
  case isTrue =>
    rcases hask : conn.views with ⟨_ | views, conn₂⟩
    · simp [hask] at h
    · obtain ⟨answer, n, rfl, rfl, hlength⟩ := Connection.ask_ok Catalog.verbatim_viewsQuery hask
      rw [hask] at h
      have hviews : (Catalog.firsts answer).length ≤ answer.length := List.length_filterMap_le _ _
      cases hfirsts : Catalog.firsts answer with
      | nil =>
        simp only [hfirsts] at h
        have hlast := extent_close h patience
        omega
      | cons view views =>
        simp only [hfirsts] at h
        obtain ⟨-, rfl, rfl⟩ : _ ∧ _ ∧ conn.used [Catalog.viewsQuery] n = conn₁ := by simpa using h
        have hfinite := hheard.question (Or.inr (Or.inl rfl)) (List.prefix_refl _)
        have hanswer := hlength hfinite
        rw [hfirsts, List.length_cons] at hviews
        simp only [extent, held, unheld, List.length_map]
        omega

/-- The first line of the tables is one of those that may be left. -/
theorem extent_fromTables {names : List String} {text : String} (hrows : d.rows = none)
    (h : d.fromTables cancelled names conn = (.line text, d₁, conn₁))
    (hheard : Catalog.Heard conn conn₁) (hbounded : d₁.Bounded cancelled) (patience : Nat) :
    d₁.extent patience conn₁ + 1 ≤ d.held patience + tablesReach patience conn.backend names +
      rowsIn 0 conn.backend Catalog.viewsQuery + 1 := by
  induction names generalizing d conn with
  | nil => exact extent_leaveTables h hheard patience
  | cons table names ih =>
    have htables : tablesReach patience conn.backend (table :: names) =
        tableReach patience conn.backend table + tablesReach patience conn.backend names := rfl
    rw [fromTables] at h
    rcases hbegin : d.begin cancelled table conn with ⟨_ | d₂, conn₂⟩
    · simp [hbegin] at h
    · obtain ⟨-, -, ⟨log, n, rfl⟩, hheld⟩ := held_begin hrows hbegin
      obtain ⟨result, d₃, m, hemit⟩ := emit?_uses cancelled { d₂ with stage := .tables names }
      have hemit := hemit (conn.used (Catalog.definitionsQuery table :: log) n)
      have hquestion {behind : List String} {k : Nat}
          (hconn₁ : conn.used (Catalog.definitionsQuery table :: behind) k = conn₁) :
          (conn.backend (Catalog.definitionsQuery table)).Finite := by
        refine hheard.question (Or.inr (Or.inr ⟨table, rfl⟩)) ⟨behind, ?_⟩
        rw [← hconn₁, Connection.used, List.append_assoc]
        rfl
      rw [hbegin] at h
      simp only [hemit, Connection.used_used] at h
      obtain ⟨text', rfl, hstage, -, hless⟩ | ⟨e, rfl, -⟩ | ⟨rfl, rfl, hd₂⟩ :=
        emit?_held hemit patience
      · obtain ⟨-, rfl, rfl⟩ : _ ∧ d₃ = d₁ ∧ _ = conn₁ := by simpa using h
        obtain ⟨hd₂, hless⟩ := hless hbounded
        have hlines := hheld patience (hquestion rfl) hd₂
        rw [extent, hstage, unheld, Connection.used_backend]
        have hsame : held patience { d₂ with stage := .tables names } = d₂.held patience := rfl
        omega
      · simp at h
      · simp only at h
        obtain ⟨result, d₄, log', k, hrest⟩ := fromTables_uses cancelled
          { d₂ with stage := .tables names, ready := [], rows := none }
          (conn.used (Catalog.definitionsQuery table :: log ++ []) (n + m)) names
        have hconn₁ := congrArg (·.2.2) ((hrest _ (.refl _)).symm.trans h)
        simp only [Connection.used_used] at hconn₁
        have hlines := hheld patience (hquestion hconn₁) hd₂
        have hmore := ih rfl h (hheard.of_le rfl (List.prefix_append _ _))
        have hless : held patience { d₂ with stage := .tables names, ready := [], rows := none } ≤
            d₂.held patience := by
          simp only [held, Option.map_none, Option.getD_none, List.length_nil]
          omega
        simp only [Connection.used_backend] at hmore
        omega

/-- The first line, and what is known of the tables then. -/
theorem extent_fromOpening {text : String} (h : d.fromOpening conn = (.line text, d₁, conn₁))
    (patience : Nat) :
    d₁.extent patience conn₁ + 1 ≤
      d.held patience + unheld patience d.settings conn .opening := by
  rw [fromOpening] at h
  rcases hask : conn.tables d.settings.exclusions with ⟨_ | names, conn₂⟩
  · simp [hask] at h
  · obtain ⟨answer, n, -, rfl, -⟩ := Connection.ask_ok Catalog.verbatim_tablesQuery hask
    simp only [hask] at h
    obtain ⟨-, rfl, rfl⟩ : _ ∧ _ ∧ _ = conn₁ := by simpa using h
    have hnames (names : List String) :
        tablesReach patience conn.backend (names.filter (!isInternal ·)) ≤
          tablesReach patience conn.backend names := by
      induction names with
      | nil => exact Nat.le_refl _
      | cons name names ih =>
        simp only [tablesReach, List.foldr_cons] at ih ⊢
        rw [List.filter_cons]
        split
        · rw [List.foldr_cons]
          omega
        · omega
    have htables := hnames names
    have hready : (if d.settings.transaction then ["BEGIN TRANSACTION;"] else []).length ≤ 1 := by
      split <;> simp
    simp only [extent, held, unheld, hask, Connection.used_backend]
    omega

theorem unheld_alike (patience : Nat) (settings : DumpSettings) {conn conn' : Connection}
    (h : conn.Alike conn') (stage : Stage) :
    unheld patience settings conn stage = unheld patience settings conn' stage := by
  obtain ⟨names, log, n, hask⟩ := conn'.ask_uses Catalog.tablesQuery
    fun rows => (Catalog.firsts rows).filter settings.exclusions.allows
  have hnames : (conn.tables settings.exclusions).1 = (conn'.tables settings.exclusions).1 := by
    rw [Connection.tables, Connection.tables, hask conn h, hask conn' (.refl conn')]
  cases stage <;> simp only [unheld, h.backend, hnames]

/-- **With each line there are fewer left**, unless there is no end to the rows behind it. -/
theorem extent_next {text : String} (h : d.next cancelled conn = (.line text, d₁, conn₁))
    (hheard : Catalog.Heard conn conn₁) (hbounded : d₁.Bounded cancelled) (patience : Nat) :
    d₁.extent patience conn₁ + 1 ≤ d.extent patience conn := by
  obtain ⟨result, d₂, n, hemit⟩ := d.emit?_uses cancelled
  have hemit := hemit conn
  have halike : (conn.used [] n).Alike conn := .used _ _ _
  rw [next, hemit] at h
  obtain ⟨text', rfl, hstage, hsettings, hless⟩ | ⟨e, rfl, -⟩ | ⟨rfl, rfl, -⟩ :=
    emit?_held hemit patience
  · obtain ⟨-, rfl, rfl⟩ : _ ∧ d₂ = d₁ ∧ _ = conn₁ := by simpa using h
    rw [extent, extent, hstage, hsettings, unheld_alike patience d.settings halike]
    have hheld := (hless hbounded).2
    omega
  · simp at h
  · have hheld (stage : Dump.Stage) :
        held patience { d with stage, ready := [], rows := none } ≤ d.held patience := by
      simp only [held, Option.map_none, Option.getD_none, List.length_nil]
      omega
    have hheard : Catalog.Heard (conn.used [] n) conn₁ :=
      hheard.of_le rfl (List.prefix_append _ _)
    rw [extent, extent, ← unheld_alike patience d.settings halike d.stage, ← extent]
    simp only at h
    cases hs : d.stage with
    | opening =>
      simp only [hs] at h
      have hmore := extent_fromOpening h patience
      simp only at hmore
      have hheld := hheld .opening
      omega
    | tables names =>
      simp only [hs] at h
      have hmore := extent_fromTables rfl h hheard hbounded patience
      have hheld := hheld (.tables names)
      rw [unheld]
      omega
    | closing =>
      simp only [hs] at h
      have hlast := extent_close h patience
      have hheld := hheld .closing
      rw [unheld]
      omega
    | done =>
      simp only [hs] at h
      simp at h

/-- **A dump that comes to an end** does not come upon rows without one. -/
theorem Finishes.bounded (h : Finishes cancelled d conn) : d.Bounded cancelled := by
  induction h with
  | @last d conn h =>
    obtain ⟨result, d₁, n, hemit⟩ := d.emit?_uses cancelled
    obtain ⟨text, rfl, -⟩ | ⟨e, -, hbounded⟩ | ⟨-, -, hbounded⟩ := emit?_held (hemit conn) 0
    · exact absurd (by rw [next, hemit]) (h text)
    · exact hbounded
    · exact hbounded
  | @line d d₁ conn conn₁ text hnext _ _ ih =>
    obtain ⟨result, d₂, n, hemit⟩ := d.emit?_uses cancelled
    obtain ⟨text', rfl, -, -, hless⟩ | ⟨e, -, hbounded⟩ | ⟨-, -, hbounded⟩ :=
      emit?_held (hemit conn) 0
    · rw [next, hemit] at hnext
      obtain ⟨-, rfl, -⟩ : _ ∧ d₂ = d₁ ∧ _ = conn₁ := by simpa using hnext
      exact (hless ih).1
    · exact hbounded
    · exact hbounded

/-- The lines that are left are written one after the other, if the bound allows for them. -/
theorem Finishes.writeWithin_eq_play (h : Finishes cancelled d conn) :
    ∃ c : Course Connection, c.Runs (·.log) conn.log ∧
      ∀ patience fuel sink, d.extent patience conn < fuel →
        d.writeWithin cancelled fuel conn sink = c.play sink := by
  induction h with
  | @last d conn h =>
    obtain ⟨result, d₁, log, n, hnext⟩ := d.next_uses cancelled conn
    have hnext := hnext conn (.refl conn)
    have hlog : conn.log <+: (conn.used log n).log := List.prefix_append _ _
    cases result with
    | line text => exact absurd (congrArg Prod.fst hnext) (h text)
    | error e =>
      refine ⟨.through (some e) (conn.used log n), hlog, fun patience fuel sink hfuel => ?_⟩
      obtain ⟨fuel, rfl⟩ := Nat.exists_eq_add_one_of_ne_zero (Nat.ne_zero_of_lt hfuel)
      rw [writeWithin, hnext]
      rfl
    | done =>
      refine ⟨.through none (conn.used log n), hlog, fun patience fuel sink hfuel => ?_⟩
      obtain ⟨fuel, rfl⟩ := Nat.exists_eq_add_one_of_ne_zero (Nat.ne_zero_of_lt hfuel)
      rw [writeWithin, hnext]
      rfl
  | @line d d₁ conn conn₁ text hnext hheard hrest ih =>
    obtain ⟨c, hruns, hwrite⟩ := ih
    have hlog : conn.log <+: conn₁.log := by
      obtain ⟨result, d₂, log, n, huses⟩ := d.next_uses cancelled conn
      obtain rfl : conn.used log n = conn₁ :=
        congrArg (·.2.2) ((huses conn (.refl conn)).symm.trans hnext)
      exact List.prefix_append _ _
    refine ⟨.puts [.line text] conn₁ c, (hruns.puts conn₁ _).mono hlog,
      fun patience fuel sink hfuel => ?_⟩
    obtain ⟨fuel, rfl⟩ := Nat.exists_eq_add_one_of_ne_zero (Nat.ne_zero_of_lt hfuel)
    have hless := extent_next hnext hheard hrest.bounded patience
    have hwrite (out : Sink) := hwrite patience fuel out (by omega)
    simp only [writeWithin, hnext, Course.play_puts]
    rcases sink.putAll [.line text] with ⟨_ | e, out⟩
    · exact hwrite out
    · rfl

/-- **A dump that comes to an end** is written along a course. -/
theorem Finishes.write_eq_play (h : Finishes cancelled d conn) :
    ∃ c : Course Connection, c.Runs (·.log) conn.log ∧
      ∀ sink, d.write cancelled conn sink = c.play sink := by
  obtain ⟨c, hruns, hwrite⟩ := h.writeWithin_eq_play
  exact ⟨c, hruns, fun sink => hwrite _ _ sink (extent_lt_reach _ d conn)⟩

end Dump

end SqlConsole
