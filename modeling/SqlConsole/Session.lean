import SqlConsole.Dump
import SqlConsole.Output

/-!
# Sessions

A session drives any number of batches and dumps over one connection, one step at a time. Batches,
their current result sets, dumps and cancellation tokens are known by names, each kind with names
of its own. A current result set outlives its batch when the batch is dropped.
-/

namespace SqlConsole

/-- Things known by name, the latest first. -/
abbrev Named (α : Type) := List (String × α)

namespace Named

variable {α : Type}

def get? (xs : Named α) (name : String) : Option α := List.lookup name xs

def erase (xs : Named α) (name : String) : Named α := xs.filter (·.1 != name)

def put (xs : Named α) (name : String) (a : α) : Named α := (name, a) :: xs.erase name

end Named

/-- What can be done in a session. -/
inductive Step where
  /-- Starts the statements of a text as the batch `id`; `token` names its cancellation token. -/
  | execute (id sql : String) (token : Option String)
  /-- Starts statements that were split before. -/
  | executeStatements (id : String) (statements : List String) (token : Option String)
  | next (id : String)
  | row (id : String)
  /-- Asks for a row `n` times. -/
  | take (id : String) (n : Nat)
  /-- Reads rows until something else comes. -/
  | rows (id : String)
  /-- Reads over the rows, to what comes behind them. -/
  | drain (id : String)
  /-- Reads all that a batch has still to yield. -/
  | outcomes (id : String)
  | dropRows (id : String)
  | drop (id : String)
  | dropDump (id : String)
  | cancel (id : String)
  | cancelToken (token : String)
  | isCancelled (token : String)
  | log
  /-- A user of the connection breaks off while using it. -/
  | breakConnection
  | print (sql : String) (settings : PrintSettings) (sink : Sink)
  | printRest (id : String) (settings : PrintSettings) (sink : Sink)
  /-- Prints the current result set in a given layout, or in the one that the settings choose. -/
  | printSet (id : String) (layout : Layout ⊕ PrintSettings) (sink : Sink)
  | tables (exclusions : Exclusions)
  | tableDefinitions (table : String)
  | views
  | indexes (table : Option String)
  | schema (pattern : Option String) (exclusions : Exclusions)
  | dump (id : String) (settings : DumpSettings)
  | line (id : String)
  | lines (id : String)
  /-- Writes what is left of a dump. -/
  | writeDump (id : String) (sink : Sink)
  /-- Writes a dump from its beginning. -/
  | writeNewDump (settings : DumpSettings) (sink : Sink)

/-- What a step answers. -/
inductive Answer where
  | nothing
  | flag (b : Bool)
  | next (result : NextResult)
  | row (result : RowResult)
  /-- There is no current result set. -/
  | closed
  | several (answers : List Answer)
  | outcomes (results : List (Except Error Batch.Outcome))
  | statements (sqls : List String)
  | output (error : Option Error) (sink : Sink)
  | names (result : Except Error (List String))
  | definitions (result : Except Error TableDefinitions)
  | line (result : Dump.LineResult)
  | lines (texts : List String) (error : Option Error)

/-- A batch and its cancellation token. -/
structure Running where
  batch : Batch
  token : Nat

/-- The state of a session. -/
structure Session where
  conn : Connection
  /-- All batches that were started, in order. -/
  runs : List Running := []
  /-- The batches that were not dropped, as positions in `runs`. -/
  executions : Named Nat := []
  /-- The batches whose current result set is held, and the columns of that set. -/
  results : Named (Nat × List String) := []
  /-- The dumps and their tokens. -/
  dumps : Named (Dump × Nat) := []
  tokens : Named Nat := []
  /-- The number of tokens that were made. -/
  tokenCount : Nat := 0
  cancelled : List Nat := []
  /-- Whether a cancellation may have met a row on its way. -/
  raced : Bool := false

namespace Session

/-- A session on a database. -/
def on (backend : Backend) : Session := { conn := { backend } }

/-- The number of rows that were fetched, unless a cancellation may have stopped one. -/
def fetched? (s : Session) : Option Nat := if s.raced then none else some s.conn.fetched

/-- A token without a name. -/
def newToken (s : Session) : Nat × Session :=
  (s.tokenCount, { s with tokenCount := s.tokenCount + 1 })

/-- The token of a name, which is made if there is none. -/
def token (s : Session) (name : String) : Nat × Session :=
  match s.tokens.get? name with
  | some t => (t, s)
  | none =>
    let (t, s) := s.newToken
    (t, { s with tokens := s.tokens.put name t })

/-- Cancels a token. The batches under it have come to rest before: a row that was on its way to the
consumer has been fetched and is still handed over. The token can also be cancelled before that row
is fetched, while the worker is on its way to it, and no row follows then; that is a matter of the
`Engine`, where a cancellation finds the worker anywhere. -/
def cancel (s : Session) (t : Nat) : Session :=
  { s with cancelled := t :: s.cancelled }

/-- Notes that a cancellation was asked for. A row of a result set or of a dump that is held may
be on its way then. -/
def race (s : Session) : Session :=
  { s with raced := s.raced || !s.results.isEmpty || !s.dumps.isEmpty }

/-- Lets a batch do something; `missing` is the answer if there is no such batch. -/
def act {α : Type} (s : Session) (i : Nat) (missing : α)
    (f : Bool → Batch → Connection → α × Batch × Connection) : α × Session :=
  match s.runs[i]? with
  | none => (missing, s)
  | some r =>
    let (a, batch, conn) := f (s.cancelled.contains r.token) r.batch s.conn
    (a, { s with conn, runs := s.runs.set i { r with batch } })

/-- Drops a current result set; tells whether there was one. -/
def dropResult (s : Session) (id : String) : Bool × Session :=
  match s.results.get? id with
  | none => (false, s)
  | some (i, _) =>
    let ((), s) := s.act i () fun _ b conn => ((), b.dropRows, conn)
    (true, { s with results := s.results.erase id })

/-- Drops a batch; tells whether there was one. -/
def dropBatch (s : Session) (id : String) : Bool × Session :=
  match s.executions.get? id with
  | none => (false, s)
  | some i =>
    let ((), s) := s.act i () fun _ b conn => ((), b.abandon, conn)
    (true, { s with executions := s.executions.erase id })

/-- Starts a batch under a name, in place of one of that name. -/
def begin (s : Session) (id : String) (statements : List Statement) (token : Nat) : Session :=
  let (_, s) := s.dropBatch id
  { s with
    runs := s.runs ++ [⟨Batch.start statements s.conn, token⟩]
    executions := s.executions.put id s.runs.length
    tokens := s.tokens.put id token }

/-- The next result set of a batch. -/
def next (s : Session) (id : String) : Answer × Session :=
  let (_, s) := s.dropResult id
  match s.executions.get? id with
  | none => (.next .done, s)
  | some i =>
    let (result, s) := s.act i .done Batch.next
    match result with
    | .columns names => (.next result, { s with results := s.results.put id (i, names) })
    | .error _ | .done => (.next result, s)

/-- The next row of a current result set. -/
def row (s : Session) (id : String) : Answer × Session :=
  match s.results.get? id with
  | none => (.closed, s)
  | some (i, _) =>
    let (result, s) := s.act i .done Batch.row
    (.row result, s)

/-- The answers to several requests for a row. -/
def take (s : Session) (id : String) : Nat → List Answer × Session
  | 0 => ([], s)
  | n + 1 =>
    let (a, s) := s.row id
    let (as, s) := s.take id n
    (a :: as, s)

/-- All rows of a current result set and what comes behind them; nothing if there is none. -/
def rest (s : Session) (id : String) : Option (List Row × RowResult) × Session :=
  match s.results.get? id with
  | none => (none, s)
  | some (i, _) =>
    s.act i none fun cancelled b conn =>
      let (cells, stop, b, conn) := b.rows cancelled (b.reach 0) conn
      (some (cells, stop.getD .done), b, conn)

/-- All that a batch has still to yield. -/
def outcomes (s : Session) (id : String) : Answer × Session :=
  let (_, s) := s.dropResult id
  match s.executions.get? id with
  | none => (.outcomes [], s)
  | some i =>
    let (results, s) := s.act i [] fun cancelled b conn => b.outcomes cancelled conn
    (.outcomes results, s)

/-- Prints a current result set, which is gone then. -/
def printSet (s : Session) (id : String) (layout : Layout ⊕ PrintSettings) (sink : Sink) :
    Answer × Session :=
  match s.results.get? id with
  | none => (.closed, s)
  | some (i, columns) =>
    let layout := match layout with
      | .inl layout => layout
      | .inr settings => .choose columns settings
    let (answer, s) := s.act i (.closed : Answer) fun cancelled b conn =>
      let printed := layout.print cancelled columns b conn sink
      (.output printed.error printed.sink, printed.batch.dropRows, printed.conn)
    (answer, { s with results := s.results.erase id })

/-- Prints what a batch has still to yield. The batch is gone then. -/
def printRest (s : Session) (id : String) (settings : PrintSettings) (sink : Sink) :
    Answer × Session :=
  let (_, s) := s.dropResult id
  match s.executions.get? id with
  | none => (.closed, s)
  | some i =>
    let (answer, s) := s.act i (.closed : Answer) fun cancelled b conn =>
      let (e, conn, sink) := b.print cancelled settings conn sink
      (.output e sink, b.abandon, conn)
    (answer, { s with executions := s.executions.erase id })

/-- The answer of the connection to a question. -/
def ask {α : Type} (s : Session) (f : Connection → α × Connection) (answer : α → Answer) :
    Answer × Session :=
  let (a, conn) := f s.conn
  (answer a, { s with conn })

/-- Lets a dump do something. -/
def dumpStep (s : Session) (id : String)
    (f : Bool → Dump → Connection → Answer × Dump × Connection) : Answer × Session :=
  match s.dumps.get? id with
  | none => (.closed, s)
  | some (d, t) =>
    let (a, d, conn) := f (s.cancelled.contains t) d s.conn
    (a, { s with conn, dumps := s.dumps.put id (d, t) })

/-- Writes what is left of a dump. -/
def writeDump (s : Session) (cancelled : Bool) (d : Dump) (sink : Sink) : Answer × Session :=
  let (e, conn, sink) := d.write cancelled s.conn sink
  (.output e sink, { s with conn })

/-- Does one step. -/
def step (s : Session) : Step → Answer × Session
  | .execute id sql token =>
    let (t, s) := match token with
      | some name => s.token name
      | none => s.newToken
    (.nothing, s.begin id (Statement.split sql) t)
  | .executeStatements id statements token =>
    let (t, s) := s.token (token.getD id)
    (.nothing, s.begin id (statements.map Statement.ofText) t)
  | .next id => s.next id
  | .row id => s.row id
  | .take id n =>
    let (as, s) := s.take id n
    (.several as, s)
  | .rows id =>
    match s.rest id with
    | (none, s) => (.several [.closed], s)
    | (some (cells, stop), s) => (.several (cells.map (.row <| .row ·) ++ [.row stop]), s)
  | .drain id =>
    match s.rest id with
    | (none, s) => (.closed, s)
    | (some (_, stop), s) => (.row stop, s)
  | .outcomes id => s.outcomes id
  | .dropRows id =>
    let (b, s) := s.dropResult id
    (.flag b, s)
  | .drop id =>
    let (b, s) := s.dropBatch id
    (.flag b, s)
  | .dropDump id => (.flag (s.dumps.get? id).isSome, { s with dumps := s.dumps.erase id })
  | .cancel id =>
    let t := (s.executions.get? id).bind fun i => s.runs[i]?.map (·.token)
    (.nothing, (t.elim s s.cancel).race)
  | .cancelToken token =>
    let (t, s) := s.token token
    (.nothing, (s.cancel t).race)
  | .isCancelled token =>
    (.flag ((s.tokens.get? token).any s.cancelled.contains), s)
  | .log => (.statements s.conn.log, s)
  | .breakConnection => (.nothing, { s with conn := { s.conn with broken := true } })
  | .print sql settings sink =>
    s.ask (fun conn =>
      let (e, conn, sink) := conn.print sql settings sink
      ((e, sink), conn)) fun (e, sink) => .output e sink
  | .printRest id settings sink => s.printRest id settings sink
  | .printSet id layout sink => s.printSet id layout sink
  | .tables exclusions => s.ask (·.tables exclusions) .names
  | .tableDefinitions table => s.ask (·.tableDefinitions table) .definitions
  | .views => s.ask (·.views) .names
  | .indexes table => s.ask (·.indexes table) .names
  | .schema pattern exclusions => s.ask (·.schema pattern exclusions) .names
  | .dump id settings =>
    let (t, s) := s.newToken
    (.nothing,
      { s with dumps := s.dumps.put id ({ settings }, t), tokens := s.tokens.put id t })
  | .line id => s.dumpStep id fun cancelled d conn =>
    let (result, d, conn) := d.next cancelled conn
    (.line result, d, conn)
  | .lines id => s.dumpStep id fun cancelled d conn =>
    let (texts, e, d, conn) := d.lines cancelled conn
    (.lines texts e, d, conn)
  | .writeDump id sink =>
    match s.dumps.get? id with
    | none => (.closed, s)
    | some (d, t) =>
      { s with dumps := s.dumps.erase id }.writeDump (s.cancelled.contains t) d sink
  | .writeNewDump settings sink => s.writeDump false { settings } sink

/-- Does steps one after the other. -/
def run (s : Session) : List Step → List Answer × Session
  | [] => ([], s)
  | step :: steps =>
    let (a, s) := s.step step
    let (as, s) := s.run steps
    (a :: as, s)

end Session

end SqlConsole
