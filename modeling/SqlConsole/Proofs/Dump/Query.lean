import SqlConsole.Catalog
import SqlConsole.Proofs.Batch.Safety
import SqlConsole.Proofs.Batch.Use
import SqlConsole.Proofs.Statement.Trimming

/-!
# Questions to a database

What was run before and how many rows were fetched is nothing that an answer depends on: on two
connections to one database a batch does the same (`Batch.next_alike`, `Batch.row_alike`), and so a
question is answered as it is on a connection that nobody has used (`Backend.answer?`).
-/

namespace SqlConsole

/-- What a database answers to a question, if it answers it in full. -/
def Backend.answer? (backend : Backend) (sql : String) : Option (List Row) :=
  (Connection.query { backend } sql).1.toOption

namespace Batch

section Alike

variable {conn conn' : Connection}

theorem next_alike (cancelled : Bool) (b : Batch) (h : conn.Alike conn') :
    ∃ result b₁ conn₁ conn₁', b.next cancelled conn = (result, b₁, conn₁) ∧
      b.next cancelled conn' = (result, b₁, conn₁') ∧ conn₁.Alike conn ∧ conn₁'.Alike conn' := by
  obtain ⟨result, b₁, log, n, -, -, hnext⟩ := next_uses cancelled b conn.backend
  exact ⟨_, _, _, _, hnext conn rfl, hnext conn' h.backend.symm, .used _ _ _, .used _ _ _⟩

theorem row_alike (cancelled : Bool) (b : Batch) (conn conn' : Connection) :
    ∃ result b₁ conn₁ conn₁', b.row cancelled conn = (result, b₁, conn₁) ∧
      b.row cancelled conn' = (result, b₁, conn₁') ∧ conn₁.Alike conn ∧ conn₁'.Alike conn' := by
  obtain ⟨result, b₁, n, -, hrow⟩ := row_uses cancelled b
  exact ⟨_, _, _, _, hrow conn, hrow conn', .used _ _ _, .used _ _ _⟩

end Alike

end Batch

namespace Connection

variable {conn conn' : Connection}

/-- **A question** is answered in the same way on all connections to a database, with the same
use. -/
theorem query_uses (conn : Connection) (sql : String) :
    ∃ result log n, log <+: (Batch.start [Statement.ofText sql] conn).todo ∧
      ∀ c : Connection, c.Alike conn → c.query sql = (result, c.used log n) := by
  obtain ⟨result, log, n, hlog, hcollect⟩ :=
    Batch.collect_uses ((Batch.start [Statement.ofText sql] conn).setsLeft conn.backend)
      (Batch.start [Statement.ofText sql] conn) conn.backend
  refine ⟨result, log, n, hlog, fun c h => ?_⟩
  have hstart : Batch.start [Statement.ofText sql] c = Batch.start [Statement.ofText sql] conn := by
    rw [Batch.start, Batch.start, h.broken]
  rw [query, hstart, h.backend]
  exact hcollect c h.backend

theorem query_alike (sql : String) (h : conn.Alike conn') :
    ∃ result conn₁ conn₁', conn.query sql = (result, conn₁) ∧ conn'.query sql = (result, conn₁') ∧
      conn₁.Alike conn ∧ conn₁'.Alike conn' := by
  obtain ⟨result, log, n, -, hquery⟩ := query_uses conn sql
  exact ⟨_, _, _, hquery conn (.refl conn), hquery conn' h.symm, .used _ _ _, .used _ _ _⟩

/-- A broken connection answers nothing. -/
theorem query_broken (h : conn.broken = true) (sql : String) :
    (conn.query sql).1 = .error .brokenConnection := by
  have hstage : (Batch.start [Statement.ofText sql] conn).stage = .refused .brokenConnection := by
    rw [Batch.start, h]
    rfl
  rw [query, Batch.setsLeft, Batch.collect, Batch.next_refused hstage]

/-- **A question is answered by the database.** What else the connection was used for does not
count, unless it was broken. -/
theorem query_cases (conn : Connection) (sql : String) :
    (∃ rows conn₁, conn.query sql = (.ok rows, conn₁) ∧ conn.backend.answer? sql = some rows ∧
      conn₁.Alike conn) ∨
    (∃ e conn₁, conn.query sql = (.error e, conn₁) ∧
      (conn.broken = true ∨ conn.backend.answer? sql = none) ∧ conn₁.Alike conn) := by
  cases hbroken : conn.broken with
  | true =>
    obtain ⟨result, conn₁, _, hq, -, ha, -⟩ := query_alike sql (.refl conn)
    have herror := query_broken hbroken sql
    rw [hq] at herror
    exact Or.inr ⟨_, conn₁, by rw [hq, ← herror], Or.inl rfl, ha⟩
  | false =>
    have hfresh : conn.Alike { backend := conn.backend } := ⟨rfl, hbroken⟩
    obtain ⟨result, conn₁, conn₂, hq, hq', ha, -⟩ := query_alike sql hfresh
    have hanswer : conn.backend.answer? sql = result.toOption := by rw [Backend.answer?, hq']
    cases result with
    | ok rows => exact Or.inl ⟨rows, conn₁, hq, hanswer, ha⟩
    | error e => exact Or.inr ⟨e, conn₁, hq, Or.inr hanswer, ha⟩

/-- What is made of an answer is made of the database's answer. -/
theorem ask_cases {α : Type} (conn : Connection) (sql : String) (read : List Row → α) :
    (∃ rows conn₁, conn.ask sql read = (.ok (read rows), conn₁) ∧
      conn.backend.answer? sql = some rows ∧ conn₁.Alike conn) ∨
    (∃ e conn₁, conn.ask sql read = (.error e, conn₁) ∧
      (conn.broken = true ∨ conn.backend.answer? sql = none) ∧ conn₁.Alike conn) := by
  rw [ask]
  obtain ⟨rows, conn₁, hq, hanswer, ha⟩ | ⟨e, conn₁, hq, hnone, ha⟩ := query_cases conn sql
  · exact Or.inl ⟨rows, conn₁, by rw [hq], hanswer, ha⟩
  · exact Or.inr ⟨e.inCatalog, conn₁, by rw [hq], hnone, ha⟩

end Connection

/-! ## Answers of one result set -/

namespace Statement

/-- A text with something to run that is run as it is. -/
structure Verbatim (text : String) : Prop where
  isBlank : (ofText text).isBlank = false
  sql : (ofText text).sql = text

/-- A text with other than white space at its ends, whatever stands between. -/
theorem verbatim_append {pre suf : String} {c d : Char} (hpre : pre.toList.head? = some c)
    (hsuf : suf.toList.getLast? = some d) (hc : Text.isBlank c = false)
    (hd : Text.isBlank d = false) (mid : String) : Verbatim (pre ++ mid ++ suf) := by
  have hhead : (pre ++ mid ++ suf).toList.head? = some c := by
    simp [List.head?_append, hpre]
  have hlast : (pre ++ mid ++ suf).toList.getLast? = some d := by
    simp [List.getLast?_append, hsuf]
  have htrim : Text.trim (pre ++ mid ++ suf).toList = (pre ++ mid ++ suf).toList := by
    refine Text.trim_eq_self ?_ ?_
    · rw [hhead]
      rintro _ ⟨⟩
      exact hc
    · rw [hlast]
      rintro _ ⟨⟩
      exact hd
  have hsql : (ofText (pre ++ mid ++ suf)).sql = pre ++ mid ++ suf := by
    rw [ofText, htrim, String.ofList_toList]
  refine ⟨?_, hsql⟩
  obtain ⟨tail, htext⟩ := List.head?_eq_some_iff.mp hhead
  rw [isBlank, hsql, htrim, htext]
  rfl

end Statement

namespace Batch

/-- The first statement is run, whatever comes of it. -/
theorem log_advance (sql : String) (todo : List String) (conn : Connection) :
    conn.log ++ [sql] <+: (advance false (sql :: todo) conn).2.2.log := by
  rw [advance_cons]
  cases (conn.backend sql).refusal with
  | some message => exact List.prefix_refl _
  | none =>
    cases (conn.backend sql).sets with
    | cons set sets =>
      exact (quiet_fetch false ⟨todo, .idle, false⟩ set.rows _ (conn.logged sql)).ledger.grows
    | nil =>
      cases (conn.backend sql).failure with
      | some message => exact List.prefix_refl _
      | none => exact (advance_spec false todo (conn.logged sql)).1.grows

/-- What is run for the first result set is run for all of them. -/
theorem log_next_prefix_collect (fuel : Nat) (b : Batch) (conn : Connection) :
    (b.next false conn).2.2.log <+: (collect (fuel + 1) b conn).2.log := by
  rw [collect]
  rcases b.next false conn with ⟨result, b₁, conn₁⟩
  cases result with
  | done | error _ => exact List.prefix_refl _
  | columns columns =>
    obtain ⟨cells, stop, b₂, n, -, hrows⟩ := rows_uses false (b₁.reach 0) b₁
    obtain ⟨more, log, k, -, hcollect⟩ := collect_uses fuel b₂ conn₁.backend
    have hrest : collect fuel b₂ (conn₁.used [] n) = (more, (conn₁.used [] n).used log k) :=
      hcollect (conn₁.used [] n) rfl
    have hlog : conn₁.log <+: ((conn₁.used [] n).used log k).log := by simp [Connection.used]
    simp only [hrows]
    rcases stop with _ | _ | e | _
    case some.error => simp [Connection.used]
    all_goals
      simp only [hrest]
      cases more <;> exact hlog

end Batch

/-- The number of rows that are fetched for the answer to a question. -/
def Backend.spent (backend : Backend) (sql : String) : Nat :=
  (Connection.query { backend } sql).2.fetched

/-- **A question that is answered** is run once, and nothing else is. -/
theorem Connection.query_of_answer? {conn : Connection} {sql : String} {rows : List Row}
    (hbroken : conn.broken = false) (hsql : Statement.Verbatim sql)
    (h : conn.backend.answer? sql = some rows) :
    conn.query sql = (.ok rows, conn.used [sql] (conn.backend.spent sql)) := by
  have hstart : Batch.start [Statement.ofText sql] { backend := conn.backend } =
      ⟨[sql], .idle, false⟩ := by
    simp [Batch.start, hsql.isBlank, hsql.sql]
  obtain ⟨result, log, n, hlog, hquery⟩ := query_uses { backend := conn.backend } sql
  have hfresh := hquery { backend := conn.backend } (.refl _)
  have hresult : result = .ok rows := by
    rw [Backend.answer?, hfresh] at h
    cases result with
    | ok rows' => rw [Option.some.inj h]
    | error e => cases h
  have hspent : conn.backend.spent sql = n := by
    rw [Backend.spent, hfresh]
    exact Nat.zero_add n
  have hran : [sql] <+: log := by
    obtain ⟨fuel, hfuel⟩ :
        ∃ fuel, (⟨[sql], .idle, false⟩ : Batch).setsLeft conn.backend = fuel + 1 := ⟨_, rfl⟩
    have hfirst := Batch.log_advance sql [] { backend := conn.backend }
    have hall := Batch.log_next_prefix_collect fuel ⟨[sql], .idle, false⟩
      { backend := conn.backend }
    rw [Connection.query, hstart, hfuel] at hfresh
    rw [Batch.next_idle rfl, hfresh] at hall
    simpa [Connection.used] using hfirst.trans hall
  rw [hstart] at hlog
  have hlog : log = [sql] := hlog.eq_of_length_le hran.length_le
  rw [hquery conn ⟨rfl, hbroken⟩, hresult, hlog, hspent]

namespace Batch

/-- What a consumer gets behind the last row. -/
def behindRows (failure : Option Error) : RowResult := failure.elim .done .error

/-- Reading up to `n` items gets to the end of a result set of less than `n` rows. -/
theorem ReadsOut.rows_eq {s last : Batch × Connection} {cells : List Row} {failure : Option Error}
    (h : ReadsOut s cells failure last) {n : Nat} (hn : cells.length < n) :
    rows false n s.1 s.2 = (cells, some (behindRows failure), last) := by
  induction h generalizing n with
  | @done s s' h =>
    obtain ⟨n, rfl⟩ := Nat.exists_eq_add_one_of_ne_zero (Nat.ne_of_gt hn)
    rw [rows, h]
    rfl
  | @failed s s' e h =>
    obtain ⟨n, rfl⟩ := Nat.exists_eq_add_one_of_ne_zero (Nat.ne_of_gt hn)
    rw [rows, h]
    rfl
  | @row s s' last cells rows failure h _ ih =>
    obtain ⟨n, rfl⟩ := Nat.exists_eq_add_one_of_ne_zero (Nat.ne_of_gt (Nat.zero_lt_of_lt hn))
    rw [Batch.rows, h]
    simp only [ih (Nat.lt_of_succ_lt_succ hn)]

/-- The rows of a finite result set are within reach. -/
theorem length_lt_reach_fetch (b : Batch) (rs : List Row) (rest : Remainder) (conn : Connection) :
    rs.length < (b.fetch false (.finite rs) rest conn).1.reach 0 := by
  cases rs with
  | nil => exact Nat.succ_pos _
  | cons cells rs => simp [fetch, Rows.next?, reach, Stage.reach, Rows.reach]

theorem rows_fetch {b : Batch} (hk : b.abandoned = false) (rs : List Row) (rest : Remainder)
    (conn : Connection) :
    rows false ((b.fetch false (.finite rs) rest conn).1.reach 0)
        (b.fetch false (.finite rs) rest conn).1 (b.fetch false (.finite rs) rest conn).2 =
      (rs, some (behindRows rest.error?), { b with stage := rest.stage },
        conn.used [] rs.length) :=
  (readsOut_fetch hk rs rest conn).rows_eq (length_lt_reach_fetch b rs rest conn)

end Batch

theorem Backend.answer?_of_finite {backend : Backend} {sql : String} {columns : List String}
    {rows : List Row} (hsql : Statement.Verbatim sql)
    (h : backend sql = { sets := [⟨columns, .finite rows⟩] }) :
    backend.answer? sql = some rows := by
  have hstart : Batch.start [Statement.ofText sql] { backend } = ⟨[sql], .idle, false⟩ := by
    simp [Batch.start, hsql.isBlank, hsql.sql]
  have hsets : (⟨[sql], .idle, false⟩ : Batch).setsLeft backend = 2 := by
    simp [Batch.setsLeft, h]
  have hnext : Batch.advance false [sql] { backend } =
      (.columns columns, Batch.fetch false ⟨[], .idle, false⟩ (.finite rows) ⟨[], none⟩
        (({ backend } : Connection).logged sql)) := by
    rw [Batch.advance_cons]
    simp only [h]
  have hidle : (⟨[], .idle, false⟩ : Batch).abandoned = false := rfl
  rw [answer?, Connection.query, hstart, hsets, Batch.collect, Batch.next_idle rfl, hnext]
  simp only [Batch.rows_fetch hidle]
  simp [Batch.behindRows, Remainder.error?, Remainder.stage, Batch.collect, Batch.next,
    Batch.dropRows, Batch.advance, Except.toOption]

end SqlConsole
