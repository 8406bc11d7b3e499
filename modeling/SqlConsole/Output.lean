import SqlConsole.Settings
import SqlConsole.Output.Csv
import SqlConsole.Output.Plan
import SqlConsole.Output.Records
import SqlConsole.Output.Table

/-!
# Printing batches

Each result set of a batch is printed in the chosen mode. Query plans are always drawn, and a
result set without columns is read but not printed. The first error ends the printing.
-/

namespace SqlConsole

/-- How one result set is printed. -/
inductive Layout where
  | silent
  | plan
  | table (withHeader : Bool)
  | csv (withHeader : Bool)
  | json
  deriving DecidableEq, Repr

namespace Layout

/-- The layout of a result set. -/
def choose (columns : List String) (settings : PrintSettings) : Layout :=
  if columns.isEmpty then silent
  else if columns = Plan.columns then plan
  else match settings.mode with
    | .table => table settings.withHeader
    | .csv => csv settings.withHeader
    | .json => json

/-- Prints the current result set of a batch. -/
def print (layout : Layout) (cancelled : Bool) (columns : List String) (b : Batch)
    (conn : Connection) (sink : Sink) : Printed :=
  match layout with
  | silent => Printer.silent.drain cancelled columns b conn sink
  | plan => Plan.printer.drain cancelled columns b conn sink
  | table header => (Table.printer header).drain cancelled columns b conn sink
  | csv header => (Csv.printer header).drain cancelled columns b conn sink
  | json => Records.printer.drain cancelled columns b conn sink

end Layout

namespace Batch

/-- Prints what a batch yields, up to the first error; the first argument bounds the number of
result sets. -/
def printWithin (cancelled : Bool) (settings : PrintSettings) :
    Nat → Batch → Connection → Sink → Option Error × Connection × Sink
  | 0, _, conn, sink => (none, conn, sink)
  | fuel + 1, b, conn, sink =>
    match b.next cancelled conn with
    | (.done, _, conn) => (none, conn, sink)
    | (.error e, _, conn) => (some e, conn, sink)
    | (.columns columns, b, conn) =>
      match (Layout.choose columns settings).print cancelled columns b conn sink with
      | ⟨some e, _, conn, sink⟩ => (some e, conn, sink)
      | ⟨none, b, conn, sink⟩ => printWithin cancelled settings fuel b conn sink

/-- Prints all that a batch has still to yield. -/
def print (b : Batch) (cancelled : Bool) (settings : PrintSettings) (conn : Connection)
    (sink : Sink) : Option Error × Connection × Sink :=
  b.printWithin cancelled settings (b.setsLeft conn.backend) conn sink

end Batch

namespace Connection

/-- Runs the statements of a text and prints what they yield. -/
def print (conn : Connection) (sql : String) (settings : PrintSettings) (sink : Sink) :
    Option Error × Connection × Sink :=
  (Batch.start (Statement.split sql) conn).print false settings conn sink

end Connection

end SqlConsole
