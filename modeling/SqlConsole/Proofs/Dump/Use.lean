import SqlConsole.Dump
import SqlConsole.Proofs.Dump.Query

/-!
# What a dump uses

A dump asks questions and reads rows, and which ones is known from the database and from how far
the dump has come. So a dump gives the same lines on every connection to a database, and adds the
same to what the connection was used for (`Dump.next_uses`, `Dump.lines_uses`, `Dump.write_uses`).
-/

namespace SqlConsole

/-- **A question to the catalog** is answered in the same way on all connections to a database. -/
theorem Connection.ask_uses {α : Type} (conn : Connection) (sql : String) (read : List Row → α) :
    ∃ result log n, ∀ c : Connection, c.Alike conn → c.ask sql read = (result, c.used log n) := by
  obtain ⟨result, log, n, -, hquery⟩ := conn.query_uses sql
  cases result with
  | ok rows => exact ⟨.ok (read rows), log, n, fun c h => by rw [ask, hquery c h]⟩
  | error e => exact ⟨.error e.inCatalog, log, n, fun c h => by rw [ask, hquery c h]⟩

namespace Dump

variable (cancelled : Bool) (d : Dump) (conn : Connection)

theorem emit?_uses :
    ∃ result d₁ n, ∀ c : Connection, d.emit? cancelled c = (result, d₁, c.used [] n) := by
  unfold emit?
  cases d.ready with
  | cons line ready => exact ⟨_, _, 0, fun c => Batch.uses_nothing _ _ c⟩
  | nil =>
    cases d.rows with
    | none => exact ⟨_, _, 0, fun c => Batch.uses_nothing _ _ c⟩
    | some b =>
      obtain ⟨result, b₁, n, -, hrow⟩ := b.row_uses cancelled
      simp only [hrow]
      cases result with
      | row cells => exact ⟨_, _, n, fun c => rfl⟩
      | error e => exact ⟨_, _, n, fun c => rfl⟩
      | done => cases d.attached <;> exact ⟨_, _, n, fun c => rfl⟩

theorem begin_uses (table : String) :
    ∃ result log n, ∀ c : Connection, c.Alike conn →
      d.begin cancelled table c = (result, c.used log n) := by
  obtain ⟨definitions, log, n, hask⟩ := conn.ask_uses (Catalog.definitionsQuery table)
    fun rows => TableDefinitions.ofPairs (Catalog.pairs rows)
  have hask (c : Connection) (h : c.Alike conn) :
      c.tableDefinitions table = (definitions, c.used log n) := hask c h
  cases definitions with
  | error e => exact ⟨.error e, log, n, fun c h => by rw [begin, hask c h]⟩
  | ok definitions =>
    have hstart (c : Connection) (h : c.Alike conn) :
        Batch.start [Statement.ofText (rowsQuery table)] (c.used log n) =
          Batch.start [Statement.ofText (rowsQuery table)] conn := by
      rw [Batch.start, Batch.start, Connection.used_broken, h.broken]
    obtain ⟨result, b, log', m, -, -, hnext⟩ := Batch.next_uses cancelled
      (Batch.start [Statement.ofText (rowsQuery table)] conn) conn.backend
    let d₁ : Dump :=
      { d with
        ready := definitions.own.toList.map (· ++ ";")
        attached := definitions.attached.map (· ++ ";")
        table }
    have hrows (c : Connection) (h : c.Alike conn) :
        (Batch.start [Statement.ofText (rowsQuery table)] (c.used log n)).next cancelled
          (c.used log n) = (result, b, c.used (log ++ log') (n + m)) := by
      rw [hstart c h, hnext (c.used log n) h.backend, Connection.used_used]
    cases result with
    | columns columns =>
      refine ⟨.ok { d₁ with rows := some b.abandon }, log ++ log', n + m, fun c h => ?_⟩
      simp only [begin, hask c h, hrows c h, d₁]
    | error e =>
      refine ⟨.error e, log ++ log', n + m, fun c h => ?_⟩
      simp only [begin, hask c h, hrows c h]
    | done =>
      refine ⟨.ok d₁, log ++ log', n + m, fun c h => ?_⟩
      simp only [begin, hask c h, hrows c h, d₁]

/-- The last line asks nothing. -/
theorem close_uses : ∃ result d₁, ∀ c : Connection, d.close c = (result, d₁, c) := by
  unfold close
  cases d.settings.transaction <;> exact ⟨_, _, fun c => rfl⟩

theorem leaveTables_uses :
    ∃ result d₁ log n, ∀ c : Connection, c.Alike conn →
      d.leaveTables c = (result, d₁, c.used log n) := by
  obtain ⟨last, d₁, hclose⟩ := d.close_uses
  cases hviews : d.settings.includeViews with
  | false =>
    refine ⟨last, d₁, [], 0, fun c _ => ?_⟩
    rw [leaveTables, hviews, c.used_nil]
    exact hclose c
  | true =>
    obtain ⟨views, log, n, hask⟩ := conn.ask_uses Catalog.viewsQuery Catalog.firsts
    have hask (c : Connection) (h : c.Alike conn) : c.views = (views, c.used log n) := hask c h
    rcases views with e | _ | ⟨view, views⟩
    · exact ⟨.error e, d.fail, log, n, fun c h => by simp [leaveTables, hviews, hask c h]⟩
    · exact ⟨last, d₁, log, n, fun c h => by simp [leaveTables, hviews, hask c h, hclose]⟩
    · exact ⟨_, _, log, n, fun c h => by simp only [leaveTables, hviews, hask c h]; rfl⟩

theorem fromTables_uses (tables : List String) :
    ∃ result d₁ log n, ∀ c : Connection, c.Alike conn →
      d.fromTables cancelled tables c = (result, d₁, c.used log n) := by
  induction tables generalizing d with
  | nil => exact d.leaveTables_uses conn
  | cons table tables ih =>
    obtain ⟨result, log, n, hbegin⟩ := d.begin_uses cancelled conn table
    cases result with
    | error e => exact ⟨.error e, d.fail, log, n, fun c h => by rw [fromTables, hbegin c h]⟩
    | ok d₁ =>
      obtain ⟨line, d₂, m, hemit⟩ := emit?_uses cancelled { d₁ with stage := .tables tables }
      cases line with
      | some line =>
        refine ⟨line, d₂, log, n + m, fun c h => ?_⟩
        simp only [fromTables, hbegin c h, hemit, Connection.used_used, List.append_nil]
      | none =>
        obtain ⟨result, d₃, log', k, hrest⟩ := ih d₂
        refine ⟨result, d₃, log ++ log', n + m + k, fun c h => ?_⟩
        have hmid := hrest (c.used log (n + m)) ((Connection.Alike.used _ _ _).trans h)
        simp only [fromTables, hbegin c h, hemit, Connection.used_used, List.append_nil, hmid]

theorem fromOpening_uses :
    ∃ result d₁ log n, ∀ c : Connection, c.Alike conn →
      d.fromOpening c = (result, d₁, c.used log n) := by
  obtain ⟨names, log, n, hask⟩ := conn.ask_uses Catalog.tablesQuery
    fun rows => (Catalog.firsts rows).filter d.settings.exclusions.allows
  have hask (c : Connection) (h : c.Alike conn) :
      c.tables d.settings.exclusions = (names, c.used log n) := hask c h
  cases names with
  | error e => exact ⟨.error e, d.fail, log, n, fun c h => by rw [fromOpening, hask c h]⟩
  | ok names => exact ⟨_, _, log, n, fun c h => by simp only [fromOpening, hask c h]; rfl⟩

/-- **The next line** is the same on all connections to a database. -/
theorem next_uses :
    ∃ result d₁ log n, ∀ c : Connection, c.Alike conn →
      d.next cancelled c = (result, d₁, c.used log n) := by
  obtain ⟨line, d₁, n, hemit⟩ := d.emit?_uses cancelled
  cases line with
  | some line => exact ⟨line, d₁, [], n, fun c _ => by rw [next, hemit]⟩
  | none =>
    have hthen (f : Connection → LineResult × Dump × Connection)
        (hf : ∃ result d₂ log m, ∀ c : Connection, c.Alike conn → f c = (result, d₂, c.used log m))
        (hnext : ∀ c : Connection, d.next cancelled c = f (c.used [] n)) :
        ∃ result d₂ log m, ∀ c : Connection, c.Alike conn →
          d.next cancelled c = (result, d₂, c.used log m) := by
      obtain ⟨result, d₂, log, m, hf⟩ := hf
      refine ⟨result, d₂, log, n + m, fun c h => ?_⟩
      rw [hnext, hf _ ((Connection.Alike.used _ _ _).trans h), Connection.used_used, List.nil_append]
    cases hs : d₁.stage with
    | opening => exact hthen _ (d₁.fromOpening_uses conn) fun c => by simp only [next, hemit, hs]
    | tables names =>
      exact hthen _ (d₁.fromTables_uses cancelled conn names) fun c => by
        simp only [next, hemit, hs]
    | closing =>
      obtain ⟨last, d₂, hclose⟩ := d₁.close_uses
      exact ⟨last, d₂, [], n, fun c _ => by simp only [next, hemit, hs, hclose]⟩
    | done => exact ⟨.done, d₁, [], n, fun c _ => by simp only [next, hemit, hs]⟩

theorem linesWithin_uses (fuel : Nat) :
    ∃ texts error d₁ log n, ∀ c : Connection, c.Alike conn →
      linesWithin cancelled fuel d c = (texts, error, d₁, c.used log n) := by
  induction fuel generalizing d with
  | zero => exact ⟨[], none, d, [], 0, fun c _ => by rw [linesWithin, c.used_nil]⟩
  | succ fuel ih =>
    obtain ⟨result, d₁, log, n, hnext⟩ := d.next_uses cancelled conn
    cases result with
    | error e => exact ⟨[], some e, d₁, log, n, fun c h => by rw [linesWithin, hnext c h]⟩
    | done => exact ⟨[], none, d₁, log, n, fun c h => by rw [linesWithin, hnext c h]⟩
    | line text =>
      obtain ⟨more, error, d₂, log', m, hrest⟩ := ih d₁
      refine ⟨text :: more, error, d₂, log ++ log', n + m, fun c h => ?_⟩
      have hmid := hrest (c.used log n) ((Connection.Alike.used _ _ _).trans h)
      simp only [linesWithin, hnext c h, hmid, Connection.used_used]

theorem writeWithin_uses (fuel : Nat) (sink : Sink) :
    ∃ error log n out, ∀ c : Connection, c.Alike conn →
      writeWithin cancelled fuel d c sink = (error, c.used log n, out) := by
  induction fuel generalizing d sink with
  | zero => exact ⟨none, [], 0, sink, fun c _ => by rw [writeWithin, c.used_nil]⟩
  | succ fuel ih =>
    obtain ⟨result, d₁, log, n, hnext⟩ := d.next_uses cancelled conn
    cases result with
    | error e => exact ⟨some e, log, n, sink, fun c h => by rw [writeWithin, hnext c h]⟩
    | done => exact ⟨none, log, n, sink, fun c h => by rw [writeWithin, hnext c h]⟩
    | line text =>
      rcases hput : sink.putAll [.line text] with ⟨_ | e, out⟩
      · obtain ⟨error, log', m, out', hrest⟩ := ih d₁ out
        refine ⟨error, log ++ log', n + m, out', fun c h => ?_⟩
        have hmid := hrest (c.used log n) ((Connection.Alike.used _ _ _).trans h)
        simp only [writeWithin, hnext c h, hput, hmid, Connection.used_used]
      · exact ⟨some e, log, n, out, fun c h => by simp only [writeWithin, hnext c h, hput]⟩

/-- How many lines may be left is known from the database. -/
theorem reach_alike (patience : Nat) {c : Connection} (h : c.Alike conn) :
    d.reach patience c = d.reach patience conn := by
  obtain ⟨names, log, n, hask⟩ := conn.ask_uses Catalog.tablesQuery
    fun rows => (Catalog.firsts rows).filter d.settings.exclusions.allows
  have hnames : (c.tables d.settings.exclusions).1 = (conn.tables d.settings.exclusions).1 := by
    rw [Connection.tables, Connection.tables, hask c h, hask conn (.refl conn)]
  rw [reach, reach, h.backend, hnames]

/-- **All lines that are left** are the same on all connections to a database. -/
theorem lines_uses :
    ∃ texts error d₁ log n, ∀ c : Connection, c.Alike conn →
      d.lines cancelled c = (texts, error, d₁, c.used log n) := by
  obtain ⟨texts, error, d₁, log, n, hlines⟩ := d.linesWithin_uses cancelled conn (d.reach 0 conn)
  exact ⟨texts, error, d₁, log, n, fun c h => by rw [lines, d.reach_alike conn 0 h, hlines c h]⟩

/-- **Writing a dump** writes the same on all connections to a database. -/
theorem write_uses (sink : Sink) :
    ∃ error log n out, ∀ c : Connection, c.Alike conn →
      d.write cancelled c sink = (error, c.used log n, out) := by
  obtain ⟨error, log, n, out, hwrite⟩ :=
    d.writeWithin_uses cancelled conn (d.reach (sink.room.getD 0 + 1) conn) sink
  exact ⟨error, log, n, out, fun c h => by rw [write, d.reach_alike conn _ h, hwrite c h]⟩

end Dump

end SqlConsole
