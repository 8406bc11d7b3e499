import Mathlib.Data.List.TakeWhile
import SqlConsole.Proofs.Batch.Drain
import SqlConsole.Storage.Queries

/-!
# What single queries show

SQLite computes the rows of a statement one at a time. Those in front of a failure are shown before
it, and a failure in place of the first row is all that is shown (`Batch.brokenOff`). So a batch that
takes absolute values shows those of the numbers up to the first that has none in 64 bits, and goes
on to its second statement only if there is no such number. What a trigger raises ends the batch with
the trigger's own message. A query that counts without end costs as many rows as are taken of it and
one more, and the statement behind it can be run at any time.
-/

namespace SqlConsole

namespace Batch

/-- What a statement shows that fails behind some rows. -/
def brokenOff (columns : List String) (rows : List Row) (message : String) :
    List (Except Error Outcome) :=
  match rows with
  | [] => [.error (.ofBackend message)]
  | row :: rows => [.ok ⟨columns, row :: rows, some (.ofBackend message)⟩]

section Stepped

variable {sql : String} {conn : Connection} {columns : List String} {rows : List Row}
  {todo : List String}

/-- A statement whose rows are computed one at a time is run, and then what is behind it. -/
theorem drains_stepped (hreply : conn.backend sql = .stepped columns rows none)
    {more : List (Except Error Outcome)} {last : Batch × Connection}
    (h : Drains (⟨todo, .idle, false⟩, conn.used [sql] rows.length) more last) :
    Drains (⟨sql :: todo, .idle, false⟩, conn) (.ok ⟨columns, rows, none⟩ :: more) last := by
  let script : Script := { sets := [(columns, rows)] }
  have hscript : conn.backend sql = ⟨script.refusal, script.sets.map written, script.failure⟩ := by
    rw [hreply]
    cases rows <;> rfl
  exact drains_statement hscript h

/-- Nothing is run behind a statement that fails. -/
theorem drains_brokenOff {message : String}
    (hreply : conn.backend sql = .stepped columns rows (some message)) :
    Drains (⟨sql :: todo, .idle, false⟩, conn) (brokenOff columns rows message)
      (⟨todo, .ended, false⟩, conn.used [sql] rows.length) := by
  cases rows with
  | nil =>
    -- A failure in place of the first row refuses the statement.
    let script : Script := { sets := [], refusal := some message }
    have hscript : conn.backend sql = ⟨script.refusal, script.sets.map written, script.failure⟩ :=
      hreply
    exact drains_statement hscript (.done rfl)
  | cons row rows =>
    let script : Script := { sets := [(columns, row :: rows)], failure := some message }
    have hscript : conn.backend sql = ⟨script.refusal, script.sets.map written, script.failure⟩ :=
      hreply
    exact drains_statement hscript (.done rfl)

end Stepped

end Batch

namespace Storage

open Batch (Drains)

/-! ## Absolute values -/

/-- Numbers are taken up to the first that has no absolute value in 64 bits. -/
theorem absolutes_eq (ns : List Int64) :
    absolutes ns = ((ns.takeWhile (· != Int64.minValue)).map fun n => [number n.toInt.natAbs],
      ns.contains Int64.minValue) := by
  induction ns with
  | nil => rfl
  | cons n ns ih =>
    rw [absolutes, List.contains_cons, BEq.comm (b := n)]
    by_cases hn : n = Int64.minValue
    · simp [hn]
    · simp [hn, ih]

/-- Any other number has one, which fits in the cell that shows it. -/
theorem number_absolute {n : Int64} (h : n ≠ Int64.minValue) :
    ∃ m : Int64, number n.toInt.natAbs = .int m ∧ m.toInt = n.toInt.natAbs := by
  have hmin : n.toInt ≠ Int64.minValue.toInt := fun hn => h (Int64.toInt_inj.mp hn)
  have hle := n.le_toInt
  have hlt := n.toInt_lt
  have hvalue : Int64.minValue.toInt = -2 ^ 63 := by decide
  exact ⟨_, rfl, Int64.toInt_ofInt_of_le (by omega) (by omega)⟩

theorem absoluteBackend_abs (ns : List Int64) :
    absoluteBackend ns "SELECT abs(v) AS v FROM t ORDER BY rowid" =
      .stepped ["v"] ((ns.takeWhile (· != Int64.minValue)).map fun n => [number n.toInt.natAbs])
        (if ns.contains Int64.minValue then some "integer overflow" else none) := by
  rw [absoluteBackend, absolutes_eq]
  rfl

theorem absoluteBackend_count (ns : List Int64) :
    absoluteBackend ns "SELECT count(*) AS n FROM t" = .stepped ["n"] [[number ns.length]] none :=
  rfl

theorem texts_absoluteBatch : Batch.texts (Statement.split absoluteBatch) =
    ["SELECT abs(v) AS v FROM t ORDER BY rowid", "SELECT count(*) AS n FROM t"] := by
  decide

/-- A batch on a connection that nobody has used before. -/
theorem start_unused (statements : List Statement) (backend : Backend) :
    Batch.start statements { backend } = ⟨Batch.texts statements, .idle, false⟩ := rfl

/-- **Numbers that all have an absolute value** are shown with it, and the second statement shows how
many there are. -/
theorem drains_absolutes {ns : List Int64} (h : Int64.minValue ∉ ns) :
    let conn : Connection := { backend := absoluteBackend ns }
    ∃ last, Drains (Batch.start (Statement.split absoluteBatch) conn, conn)
        [.ok ⟨["v"], ns.map fun n => [number n.toInt.natAbs], none⟩,
          .ok ⟨["n"], [[number ns.length]], none⟩] last ∧
      last.2.log = Batch.texts (Statement.split absoluteBatch) := by
  intro conn
  have hall : ns.takeWhile (· != Int64.minValue) = ns :=
    List.takeWhile_eq_self_iff.mpr fun n hn => by
      simpa using fun heq : n = Int64.minValue => h (heq ▸ hn)
  have habs := absoluteBackend_abs ns
  rw [hall, List.contains_eq_mem, decide_eq_false h, if_neg Bool.false_ne_true] at habs
  have hcount (used : Connection) (hbackend : used.backend = absoluteBackend ns) :
      used.backend "SELECT count(*) AS n FROM t" = .stepped ["n"] [[number ns.length]] none := by
    rw [hbackend, absoluteBackend_count]
  rw [start_unused, texts_absoluteBatch]
  exact ⟨_, Batch.drains_stepped habs (Batch.drains_stepped (hcount _ rfl) (.done rfl)), rfl⟩

/-- **The first number that has none** ends the batch: the absolute values of those in front of it
are shown, if there are any, and the second statement is not run. -/
theorem drains_overflow {before after : List Int64} (h : Int64.minValue ∉ before) :
    let conn : Connection := { backend := absoluteBackend (before ++ Int64.minValue :: after) }
    ∃ last, Drains (Batch.start (Statement.split absoluteBatch) conn, conn)
        (Batch.brokenOff ["v"] (before.map fun n => [number n.toInt.natAbs]) "integer overflow")
        last ∧
      last.2.log = ["SELECT abs(v) AS v FROM t ORDER BY rowid"] := by
  intro conn
  have hbefore : (before ++ Int64.minValue :: after).takeWhile (· != Int64.minValue) = before := by
    rw [List.takeWhile_append_of_pos fun n hn => by
      simpa using fun heq : n = Int64.minValue => h (heq ▸ hn)]
    simp
  have habs := absoluteBackend_abs (before ++ Int64.minValue :: after)
  rw [hbefore, List.contains_eq_mem, decide_eq_true (by simp), if_pos rfl] at habs
  rw [start_unused, texts_absoluteBatch]
  exact ⟨_, Batch.drains_brokenOff habs, rfl⟩

/-! ## A trigger that raises an error -/

/-- **What a trigger raises** is shown in place of the insertion that it forbids, with the message it
was given, and the statement behind the insertion is not run. -/
theorem drains_raise (message : String) :
    let conn : Connection := { backend := raiseBackend message }
    ∃ last, Drains (Batch.start (Statement.split raiseBatch) conn, conn)
        [.ok ⟨["n"], [[number 0]], none⟩, .error (.ofBackend message)] last ∧
      last.2.log = ["SELECT count(*) AS n FROM t", "INSERT INTO t VALUES(1)"] := by
  intro conn
  have htexts : Batch.texts (Statement.split raiseBatch) = ["SELECT count(*) AS n FROM t",
      "INSERT INTO t VALUES(1)", "SELECT count(*) AS n FROM t"] := by
    decide
  have hcount : conn.backend "SELECT count(*) AS n FROM t" = .stepped ["n"] [[number 0]] none := rfl
  have hinsert : (conn.used ["SELECT count(*) AS n FROM t"] 1).backend "INSERT INTO t VALUES(1)" =
      .stepped [] [] (some message) := rfl
  rw [start_unused, htexts]
  exact ⟨_, Batch.drains_stepped hcount (Batch.drains_brokenOff hinsert), rfl⟩

/-! ## Counting without end -/

/-- Of a count that goes on at some number, rows are handed over one by one, and the next one is
always fetched. -/
theorem rows_counting (n k : Nat) (todo : List String) (rest : Remainder) (conn : Connection) :
    Batch.rows false n
        ⟨todo, .streaming [.int (Int64.ofNat k)] (.counting (k + 1)) rest, false⟩ conn =
      ((List.range' k n).map fun i => [.int (Int64.ofNat i)], none,
        ⟨todo, .streaming [.int (Int64.ofNat (k + n))] (.counting (k + n + 1)) rest, false⟩,
        conn.used [] n) := by
  induction n generalizing k conn with
  | zero =>
    rw [Batch.rows, conn.used_nil]
    rfl
  | succ n ih =>
    have hrow : Batch.row false
        ⟨todo, .streaming [.int (Int64.ofNat k)] (.counting (k + 1)) rest, false⟩ conn =
        (.row [.int (Int64.ofNat k)],
          ⟨todo, .streaming [.int (Int64.ofNat (k + 1))] (.counting (k + 1 + 1)) rest, false⟩,
          conn.used [] 1) := by
      simp [Batch.row, Batch.fetch, Rows.next?, Connection.used]
    simp only [Batch.rows, hrow, ih (k + 1), Connection.used_used, List.range'_succ, List.map_cons,
      List.append_nil]
    rw [Nat.add_comm 1 n, Nat.add_right_comm k 1 n, Nat.add_assoc k n 1]

/-- **A query that counts without end** costs as many rows as are taken of it and one more. When the
rest of it is dropped, the statement behind it is run. -/
theorem rows_countBatch (n : Nat) :
    let conn : Connection := { backend := countBackend }
    let opened := (Batch.start (Statement.split countBatch) conn).next false conn
    let taken := Batch.rows false n opened.2.1 opened.2.2
    opened.1 = .columns ["x"] ∧
      taken.1 = (List.range' 1 n).map (fun i => [.int (Int64.ofNat i)]) ∧
      taken.2.2.2.fetched = n + 1 ∧
      ∃ last, Drains (taken.2.2.1.dropRows, taken.2.2.2)
          [.ok ⟨["after"], [[number 7]], none⟩] last ∧
        last.2.log = Batch.texts (Statement.split countBatch) := by
  intro conn opened taken
  have htexts : Batch.texts (Statement.split countBatch) =
      ["WITH RECURSIVE c(x) AS (SELECT 1 UNION ALL SELECT x + 1 FROM c) SELECT x FROM c",
        "SELECT 7 AS after"] := by decide +kernel
  have hopened : opened = (.columns ["x"],
      ⟨["SELECT 7 AS after"], .streaming [.int (Int64.ofNat 1)] (.counting 2) ⟨[], none⟩, false⟩,
      conn.used
        ["WITH RECURSIVE c(x) AS (SELECT 1 UNION ALL SELECT x + 1 FROM c) SELECT x FROM c"] 1) := by
    simp only [opened]
    rw [start_unused, htexts]
    rfl
  have hafter (used : Connection) (hbackend : used.backend = countBackend) :
      used.backend "SELECT 7 AS after" = .stepped ["after"] [[number 7]] none := by
    rw [hbackend]
    rfl
  simp only [taken, hopened, htexts, rows_counting n 1]
  exact ⟨trivial, trivial, Nat.add_comm 1 n, _,
    Batch.drains_stepped (hafter _ rfl) (.done rfl), rfl⟩

end Storage

end SqlConsole
