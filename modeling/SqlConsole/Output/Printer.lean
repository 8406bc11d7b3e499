import SqlConsole.Batch
import SqlConsole.Output.Sink

/-!
# Printers

A printer turns one result set into chunks of output as its rows come in. `Printer.drain` feeds it
the current result set of a batch and passes the chunks on to a sink. It stops at the first write
that fails, and takes no further row; so a printer that writes as it goes keeps the batch from
running ahead of a sink that is full.
-/

namespace SqlConsole

/-- How a result set is written. The type `σ` is what is remembered from row to row. -/
structure Printer (σ : Type) where
  /-- The beginning, from the column names. -/
  start : List String → σ × List Chunk
  /-- One more row. -/
  row : σ → Row → σ × List Chunk
  /-- The end behind the last row. -/
  close : σ → List Chunk
  /-- What is still written when a row fails. -/
  abort : σ → List Chunk

/-- What became of printing one result set. -/
structure Printed where
  error : Option Error
  batch : Batch
  conn : Connection
  sink : Sink

namespace Printer

variable {σ : Type}

/-- Prints the rows of the current result set; the first argument bounds their number. -/
def feed (p : Printer σ) (cancelled : Bool) : Nat → σ → Batch → Connection → Sink → Printed
  | 0, _, b, conn, sink => ⟨none, b, conn, sink⟩
  | fuel + 1, s, b, conn, sink =>
    match b.row cancelled conn with
    | (.row cells, b, conn) =>
      let (s, chunks) := p.row s cells
      match sink.putAll chunks with
      | (none, sink) => p.feed cancelled fuel s b conn sink
      | (some e, sink) => ⟨some e, b, conn, sink⟩
    | (.error e, b, conn) => ⟨some e, b, conn, (sink.putAll (p.abort s)).2⟩
    | (.done, b, conn) =>
      let (error, sink) := sink.putAll (p.close s)
      ⟨error, b, conn, sink⟩

/-- The number of rows of an endless result set that a sink can make a printer take: each row
adds a byte at least, and so many bytes may be held back. -/
def patience (sink : Sink) : Nat := sink.room.getD 0 + 8193

/-- Prints the current result set of a batch. -/
def drain (p : Printer σ) (cancelled : Bool) (columns : List String) (b : Batch)
    (conn : Connection) (sink : Sink) : Printed :=
  let (s, chunks) := p.start columns
  match sink.putAll chunks with
  | (none, sink) => p.feed cancelled (b.reach (patience sink)) s b conn sink
  | (some e, sink) => ⟨some e, b, conn, sink⟩

/-- Reads the rows and writes nothing. -/
def silent : Printer Unit where
  start _ := ((), [])
  row _ _ := ((), [])
  close _ := []
  abort _ := []

end Printer

end SqlConsole
