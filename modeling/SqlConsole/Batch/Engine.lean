import SqlConsole.Batch

/-!
# The engine below a batch

A batch is run by a worker, which holds the connection from beginning to end, and read by a
consumer. Each takes small steps of its own, in any order, and they meet in two places only. Result
sets are handed over in one channel, and the rows of a result set in a channel that is made for it.
Neither channel has room for anything: who sends waits for who receives, or for nobody to be there
any more.

A worker starts a statement only on demand. The consumer counts the result sets it has asked for
(`requested`), the worker those that were taken (`delivered`), and a worker who is through with a
statement waits until the two differ or the consumer has given up on the batch (`abandoned`).

The token is looked at before a statement, before a result set and before a row. Cancelling it also
interrupts the connection if a statement is running, that is, while the worker has left the
connection's interrupter with the token (`armed`).

`Engine.work?` is the worker's next step, and there is none while the worker has to wait. What the
consumer does comes behind it, one definition for each thing. `Batch` is what a consumer sees who
lets the worker come to rest before each step.
-/

namespace SqlConsole

/-- Why the worker breaks off a statement. -/
inductive Halt where
  | cancelled
  /-- The consumer has given up on the batch. -/
  | disconnected
  deriving Repr

/-- What the worker does next. -/
inductive Point where
  /-- Take hold of the connection. -/
  | locking
  /-- Wait for a request. -/
  | waiting
  /-- Look at the token before a statement. -/
  | starting
  /-- Leave the connection's interrupter with the token. -/
  | arming
  /-- Run the next statement. -/
  | querying
  /-- Go on to the next result set of the statement. -/
  | opening (rest : Remainder)
  /-- Wait for a result set to be taken. -/
  | offering (set : ResultSet) (rest : Remainder)
  /-- Count a result set that was taken. -/
  | opened (set : ResultSet) (rest : Remainder)
  /-- Fetch the next row of the current result set. -/
  | fetching (rows : Rows) (rest : Remainder)
  /-- Look at the token before a row. -/
  | pushing (row : Row) (rows : Rows) (rest : Remainder)
  /-- Wait for a row to be taken. -/
  | streaming (row : Row) (rows : Rows) (rest : Remainder)
  /-- Take back the interrupter: the statement is over, broken off or failed. -/
  | disarming (halt : Option Halt) (failure : Option String)
  /-- Report how the statement came to its end. -/
  | finishing (halt : Option Halt) (failure : Option String)
  /-- Wait for an error to be taken as the last item of the current result set. -/
  | failing (error : Error)
  /-- Wait for an error to be taken in place of a result set. -/
  | refusing (error : Error)
  /-- Count an error that was taken in place of a result set. -/
  | refused
  /-- Nothing any more. -/
  | gone
  deriving Repr

/-- A worker, its consumer and what they share. -/
structure Engine where
  point : Point := .locking
  /-- The statements that have not been run. -/
  todo : List String
  conn : Connection
  /-- The result sets that the consumer has asked for. -/
  requested : Nat := 0
  /-- Those of them that were taken, errors in place of them included. -/
  delivered : Nat := 0
  /-- Whether the consumer has given up on the batch. Nobody takes a result set any more then. -/
  abandoned : Bool := false
  /-- Whether the consumer waits for a result set. -/
  asked : Bool := false
  /-- Whether the worker holds its end of the channel of the latest result set. -/
  sender : Bool := false
  /-- Whether the consumer holds the other end. -/
  receiver : Bool := false
  cancelled : Bool := false
  /-- Whether the token holds the interrupter of the connection. -/
  armed : Bool := false
  /-- Whether the connection was told to break off. -/
  interrupted : Bool := false

namespace Engine

/-- An engine that has just been started. Its token may be cancelled already. -/
def start (statements : List Statement) (conn : Connection) (cancelled : Bool) : Engine :=
  { todo := (statements.filter (!·.isBlank)).map (·.sql), conn, cancelled }

/-! ## The worker -/

/-- What a connection says of a statement that was interrupted. -/
def interruption : String := "interrupted"

/-- The worker is through. The channel of the current result set is closed with that. -/
def quit (e : Engine) : Engine := { e with point := .gone, sender := false }

/-- Reports an error to whoever reads the current result set, if there is one, and otherwise in
place of the next. -/
def report (e : Engine) (error : Error) : Engine :=
  if e.sender then { e with point := .failing error } else { e with point := .refusing error }

/-- Goes on with the reply to a statement. -/
def onReply (e : Engine) (reply : Reply) : Engine :=
  match reply.refusal with
  | some message => { e with point := .disarming none (some message) }
  | none => { e with point := .opening ⟨reply.sets, reply.failure⟩ }

/-- Goes on with the next row of the current result set, or behind its last one. -/
def onRow (e : Engine) (rest : Remainder) : Option (Row × Rows) → Engine
  | none => { e with point := .opening rest }
  | some (row, rows) =>
    if e.interrupted then { e with point := .disarming none (some interruption) }
    else
      { e with
        conn := { e.conn with fetched := e.conn.fetched + 1 }
        point := .pushing row rows rest }

/-- The next step of the worker; none if it has to wait or is through. -/
def work? (e : Engine) : Option Engine :=
  match e.point with
  | .locking =>
    if e.conn.broken then some { e with point := .refusing .brokenConnection }
    else some { e with point := .waiting }
  | .waiting =>
    match e.todo with
    | [] => some e.quit
    | _ :: _ =>
      if e.abandoned then some e.quit
      else if e.requested = e.delivered then none
      else some { e with point := .starting }
  | .starting =>
    if e.cancelled then some { e with point := .refusing .cancelled }
    else some { e with point := .arming }
  | .arming => some { e with point := .querying, armed := true }
  | .querying =>
    match e.todo with
    | [] => some e.quit
    | sql :: todo =>
      let conn := { e.conn with log := e.conn.log ++ [sql] }
      some ({ e with todo, conn, interrupted := false }.onReply (e.conn.backend sql))
  | .opening rest =>
    match rest.sets with
    | [] => some { e with point := .disarming none rest.failure }
    | set :: sets =>
      -- The channel of the result set before is closed at once, whatever comes next.
      if e.cancelled then
        some { e with sender := false, point := .disarming (some .cancelled) none }
      else some { e with sender := false, point := .offering set ⟨sets, rest.failure⟩ }
  | .offering _ _ =>
    if e.abandoned then some { e with point := .disarming (some .disconnected) none } else none
  | .opened set rest =>
    some { e with delivered := e.delivered + 1, point := .fetching set.rows rest }
  | .fetching rows rest => some (e.onRow rest rows.next?)
  | .pushing row rows rest =>
    if e.cancelled then some { e with point := .disarming (some .cancelled) none }
    else some { e with point := .streaming row rows rest }
  | .streaming _ _ _ =>
    if e.receiver then none else some { e with sender := false, point := .disarming none none }
  | .disarming halt failure => some { e with armed := false, point := .finishing halt failure }
  | .finishing halt failure =>
    match halt, failure with
    | some .disconnected, _ => some e.quit
    | some .cancelled, _ => some (e.report .cancelled)
    -- Whatever a connection says of a statement that was cancelled, the user asked for it.
    | none, some message => some (e.report (if e.cancelled then .cancelled else .ofBackend message))
    | none, none => some { e with sender := false, point := .waiting }
  | .failing _ => if e.receiver then none else some e.quit
  | .refusing _ => if e.abandoned then some e.quit else none
  | .refused => some { e with delivered := e.delivered + 1, point := .gone }
  | .gone => none

/-! ## The consumer -/

/-- Drops what is left of the current result set. -/
def letGo (e : Engine) : Engine := { e with receiver := false }

/-- Asks for a result set. What is left of the current one is dropped before. -/
def ask (e : Engine) : Engine := { e.letGo with requested := e.requested + 1, asked := true }

/-- A result set is taken, an error in place of it, or the end. -/
def set? (e : Engine) : Option (NextResult × Engine) :=
  match e.point with
  | .offering set rest =>
    some (.columns set.columns,
      { e with point := .opened set rest, asked := false, sender := true, receiver := true })
  | .refusing error => some (.error error, { e with point := .refused, asked := false })
  | .gone => some (.done, { e with asked := false })
  | .locking | .waiting | .starting | .arming | .querying | .opening _ | .opened _ _
  | .fetching _ _ | .pushing _ _ _ | .streaming _ _ _ | .disarming _ _ | .finishing _ _
  | .failing _ | .refused => none

/-- A row of the current result set is taken, an error in place of it, or the end. -/
def item? (e : Engine) : Option (RowResult × Engine) :=
  if e.receiver then
    match e.point with
    | .streaming row rows rest => some (.row row, { e with point := .fetching rows rest })
    | .failing error => some (.error error, e.quit)
    | .locking | .waiting | .starting | .arming | .querying | .opening _ | .offering _ _
    | .opened _ _ | .fetching _ _ | .pushing _ _ _ | .disarming _ _ | .finishing _ _
    | .refusing _ | .refused | .gone => if e.sender then none else some (.done, e)
  else some (.done, e)

/-- Gives up on the batch. What is left of the current result set can still be read. -/
def giveUp (e : Engine) : Engine := { e with abandoned := true }

/-- Cancels the token. To cancel it again has no effect. -/
def cancel (e : Engine) : Engine :=
  if e.cancelled then e
  else { e with cancelled := true, interrupted := e.interrupted || e.armed }

end Engine

end SqlConsole
