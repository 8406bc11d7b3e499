import SqlConsole.Backend
import SqlConsole.Error
import SqlConsole.Statement.Split

/-!
# Batches

A `Batch` runs statements one after the other for a consumer who takes their output piece by
piece. The consumer asks for the next result set (`next`), takes rows of the current one (`row`),
drops what is left of it (`dropRows`) or gives up on the batch (`abandon`).

The batch is never far ahead of the consumer. A statement starts only when a result set is asked
for, and while a result set is read exactly one row is fetched that the consumer has not taken. The
first error ends the batch.

Whether the consumer has cancelled is known to every step as `cancelled`. A cancelled batch starts
no statement, and goes on to no further row or result set.
-/

namespace SqlConsole

/-- What a running statement has to offer behind its current result set. -/
structure Remainder where
  sets : List ResultSet
  failure : Option String
  deriving Repr

/-- What a batch is waiting for. -/
inductive Stage where
  /-- To be asked for the next statement's output. -/
  | idle
  /-- To be asked for a further result set of the running statement. -/
  | offering (set : ResultSet) (rest : Remainder)
  /-- For a row to be taken, which has been fetched. -/
  | streaming (row : Row) (rows : Rows) (rest : Remainder)
  /-- For an error to be taken, the last item of the current result set. -/
  | failing (error : Error)
  /-- To be asked for a result set, and answer with an error. -/
  | refused (error : Error)
  /-- For nothing: there is no more output. -/
  | ended
  deriving Repr

/-- A batch between two requests of its consumer. -/
structure Batch where
  /-- The statements that have not been started. -/
  todo : List String
  stage : Stage := .idle
  /-- Whether the consumer has given up on it and only reads the current result set. -/
  abandoned : Bool := false
  deriving Repr

/-- The answer to a request for a result set. -/
inductive NextResult where
  | columns (names : List String)
  | error (e : Error)
  | done
  deriving DecidableEq, Repr

/-- The answer to a request for a row. -/
inductive RowResult where
  | row (cells : Row)
  | error (e : Error)
  | done
  deriving DecidableEq, Repr

namespace Stage

/-- Behind the last row of a result set: a further one is offered, the statement fails, or the
statement is finished. -/
def settle (cancelled abandoned : Bool) (rest : Remainder) : Stage :=
  match rest.sets, rest.failure with
  | set :: sets, failure =>
    if abandoned then ended
    else if cancelled then refused .cancelled
    else offering set ⟨sets, failure⟩
  | [], some message => failing (if cancelled then .cancelled else .ofBackend message)
  | [], none => if abandoned then ended else idle

/-- A bound on the rows that are left in the current result set, its error included. -/
def reach (patience : Nat) : Stage → Nat
  | streaming _ rows _ => rows.reach patience + 2
  | failing _ => 1
  | idle | offering _ _ | refused _ | ended => 0

end Stage

namespace Batch

/-- A batch of the statements that are not blank. On a broken connection it can do nothing but
say so. -/
def start (statements : List Statement) (conn : Connection) : Batch :=
  { todo := (statements.filter (!·.isBlank)).map (·.sql)
    stage := if conn.broken then .refused .brokenConnection else .idle }

/-- Fetches the next row of the current result set, if there is one. -/
def fetch (cancelled : Bool) (b : Batch) (rows : Rows) (rest : Remainder) (conn : Connection) :
    Batch × Connection :=
  match rows.next? with
  | some (row, rows) =>
    if cancelled then ({ b with stage := .failing .cancelled }, conn)
    else
      ({ b with stage := .streaming row rows rest }, { conn with fetched := conn.fetched + 1 })
  | none => ({ b with stage := .settle cancelled b.abandoned rest }, conn)

/-- Runs statements until one yields a result set or an error. -/
def advance (cancelled : Bool) : List String → Connection → NextResult × Batch × Connection
  | [], conn => (.done, ⟨[], .ended, false⟩, conn)
  | sql :: todo, conn =>
    if cancelled then (.error .cancelled, ⟨sql :: todo, .ended, false⟩, conn)
    else
      let conn := { conn with log := conn.log ++ [sql] }
      let reply := conn.backend sql
      match reply.refusal, reply.sets, reply.failure with
      | some message, _, _ => (.error (.ofBackend message), ⟨todo, .ended, false⟩, conn)
      | none, set :: sets, failure =>
        (.columns set.columns, fetch cancelled ⟨todo, .idle, false⟩ set.rows ⟨sets, failure⟩ conn)
      | none, [], some message => (.error (.ofBackend message), ⟨todo, .ended, false⟩, conn)
      | none, [], none => advance cancelled todo conn

/-- Drops what is left of the current result set. With rows left the rest of the statement is
skipped; an error that was still to be read is lost, and the batch with it. -/
def dropRows (b : Batch) : Batch :=
  match b.stage with
  | .streaming _ _ _ => { b with stage := if b.abandoned then .ended else .idle }
  | .failing _ => { b with stage := .ended }
  | .idle | .offering _ _ | .refused _ | .ended => b

/-- Gives up on the batch. What is left of the current result set can still be read. -/
def abandon (b : Batch) : Batch :=
  match b.stage with
  | .streaming _ _ _ | .failing _ => { b with abandoned := true }
  | .idle | .offering _ _ | .refused _ | .ended => { b with stage := .ended, abandoned := true }

/-- The next result set. What is left of the current one is dropped first. -/
def next (cancelled : Bool) (b : Batch) (conn : Connection) : NextResult × Batch × Connection :=
  let b := b.dropRows
  match b.stage with
  | .idle => advance cancelled b.todo conn
  | .offering set rest => (.columns set.columns, b.fetch cancelled set.rows rest conn)
  | .refused e => (.error e, { b with stage := .ended }, conn)
  | .streaming _ _ _ | .failing _ | .ended => (.done, { b with stage := .ended }, conn)

/-- The next row of the current result set. -/
def row (cancelled : Bool) (b : Batch) (conn : Connection) : RowResult × Batch × Connection :=
  match b.stage with
  | .streaming cells rows rest => (.row cells, b.fetch cancelled rows rest conn)
  | .failing e => (.error e, { b with stage := .ended }, conn)
  | .idle | .offering _ _ | .refused _ | .ended => (.done, b, conn)

/-- The next rows of the current result set, at most `n`, and what came instead of a row, if
anything did. -/
def rows (cancelled : Bool) : Nat → Batch → Connection →
    List Row × Option RowResult × Batch × Connection
  | 0, b, conn => ([], none, b, conn)
  | n + 1, b, conn =>
    match b.row cancelled conn with
    | (.row cells, b, conn) =>
      let (more, stop, b, conn) := rows cancelled n b conn
      (cells :: more, stop, b, conn)
    | (stop, b, conn) => ([], some stop, b, conn)

/-- A bound on the rows of the current result set. -/
def reach (patience : Nat) (b : Batch) : Nat := b.stage.reach patience + 1

/-- A bound on the result sets that a batch can still yield. -/
def setsLeft (b : Batch) (backend : Backend) : Nat :=
  (match b.stage with
    | .offering _ rest | .streaming _ _ rest => rest.sets.length + 1
    | .idle | .failing _ | .refused _ | .ended => 0) +
    b.todo.foldr (fun sql n => (backend sql).sets.length + n) 0 + 1

/-- All rows of all result sets, up to the first error; the first argument bounds the number of
result sets. -/
def collect : Nat → Batch → Connection → Except Error (List Row) × Connection
  | 0, _, conn => (.ok [], conn)
  | fuel + 1, b, conn =>
    match b.next false conn with
    | (.done, _, conn) => (.ok [], conn)
    | (.error e, _, conn) => (.error e, conn)
    | (.columns _, b, conn) =>
      match rows false (b.reach 0) b conn with
      | (_, some (.error e), _, conn) => (.error e, conn)
      | (cells, _, b, conn) =>
        match collect fuel b conn with
        | (.ok more, conn) => (.ok (cells ++ more), conn)
        | (.error e, conn) => (.error e, conn)

/-- A result set that was read to its end. -/
structure Outcome where
  columns : List String
  rows : List Row
  /-- The error behind the rows, if there is one. -/
  failure : Option Error

/-- All that a batch yields, up to its end; the first argument bounds the number of answers. -/
def outcomesWithin (cancelled : Bool) :
    Nat → Batch → Connection → List (Except Error Outcome) × Batch × Connection
  | 0, b, conn => ([], b, conn)
  | fuel + 1, b, conn =>
    match b.next cancelled conn with
    | (.done, b, conn) => ([], b, conn)
    | (.error e, b, conn) =>
      let (more, b, conn) := outcomesWithin cancelled fuel b conn
      (.error e :: more, b, conn)
    | (.columns columns, b, conn) =>
      let (cells, stop, b, conn) := rows cancelled (b.reach 0) b conn
      let failure := match stop with
        | some (.error e) => some e
        | _ => none
      let (more, b, conn) := outcomesWithin cancelled fuel b conn
      (.ok ⟨columns, cells, failure⟩ :: more, b, conn)

/-- All that a batch has still to yield. -/
def outcomes (b : Batch) (cancelled : Bool) (conn : Connection) :
    List (Except Error Outcome) × Batch × Connection :=
  b.outcomesWithin cancelled (b.setsLeft conn.backend + 1) conn

end Batch

namespace Connection

/-- Runs one statement and gathers the rows of all its result sets. -/
def query (conn : Connection) (sql : String) : Except Error (List Row) × Connection :=
  let b := Batch.start [Statement.ofText sql] conn
  b.collect (b.setsLeft conn.backend) conn

end Connection

end SqlConsole
