import SqlConsole.Catalog
import SqlConsole.Identifier
import SqlConsole.Output.Sink
import SqlConsole.Text.Joined

/-!
# Dumps

A dump writes a database as a script that builds it again. The script is made line by line, each
line a statement with its `;`, and nothing is asked of the database before a line needs it. For
each table the catalog is read first, then its rows are streamed.

The first error ends the dump. Lines that were ready by then are dropped, so an error is reported
at once and `COMMIT` is never written behind it.
-/

namespace SqlConsole

namespace Dump

/-- How far a dump has come with its questions. -/
inductive Stage where
  /-- Nothing was asked. -/
  | opening
  /-- These tables have not been begun. -/
  | tables (names : List String)
  /-- All tables and views are through. -/
  | closing
  | done
  deriving DecidableEq, Repr

/-- Whether a table's name is one that SQLite keeps for itself, in any letter case. -/
def isInternal (name : String) : Bool :=
  (name.toList.take 7).map Char.toLower == "sqlite_".toList

/-- The query for a table's rows. The name is always quoted, since a keyword may name a table. -/
def rowsQuery (table : String) : String :=
  "SELECT * FROM " ++ String.ofList (Identifier.quoted table)

/-- The line of a row of a table. -/
def insertLine (table : String) (cells : Row) : String :=
  String.ofList ("INSERT INTO ".toList ++ Identifier.write table ++ " VALUES(".toList ++
    Text.joined [','] (cells.map Value.literal) ++ ");".toList)

end Dump

/-- A dump between two lines. -/
structure Dump where
  settings : DumpSettings
  stage : Dump.Stage := .opening
  /-- Lines that are ready. -/
  ready : List String := []
  /-- The rows of the table at hand. -/
  rows : Option Batch := none
  /-- The name of the table at hand. -/
  table : String := ""
  /-- The lines behind the rows of the table at hand. -/
  attached : List String := []

namespace Dump

/-- The answer to a request for a line. -/
inductive LineResult where
  | line (text : String)
  | error (e : Error)
  | done
  deriving DecidableEq, Repr

/-- The end of a dump that failed. -/
def fail (d : Dump) : Dump := { d with stage := .done, ready := [], rows := none }

/-- The next line that needs no new question: one that is ready, or the next row. -/
def emit? (cancelled : Bool) (d : Dump) (conn : Connection) :
    Option LineResult × Dump × Connection :=
  match d.ready, d.rows with
  | line :: ready, _ => (some (.line line), { d with ready }, conn)
  | [], none => (none, d, conn)
  | [], some b =>
    match b.row cancelled conn with
    | (.row cells, b, conn) =>
      (some (.line (insertLine d.table cells)), { d with rows := some b }, conn)
    | (.error e, _, conn) => (some (.error e), d.fail, conn)
    | (.done, _, conn) =>
      match d.attached with
      | [] => (none, { d with rows := none }, conn)
      | line :: ready =>
        (some (.line line), { d with ready, rows := none, attached := [] }, conn)

/-- Reads the catalog for a table and starts the query for its rows. -/
def begin (cancelled : Bool) (d : Dump) (table : String) (conn : Connection) :
    Except Error Dump × Connection :=
  match conn.tableDefinitions table with
  | (.error e, conn) => (.error e, conn)
  | (.ok definitions, conn) =>
    let d :=
      { d with
        ready := definitions.own.toList.map (· ++ ";")
        attached := definitions.attached.map (· ++ ";")
        table }
    let b := Batch.start [Statement.ofText (rowsQuery table)] conn
    match b.next cancelled conn with
    | (.columns _, b, conn) => (.ok { d with rows := some b.abandon }, conn)
    | (.error e, _, conn) => (.error e, conn)
    | (.done, _, conn) => (.ok d, conn)

/-- The line that closes the script, or its end. -/
def close (d : Dump) (conn : Connection) : LineResult × Dump × Connection :=
  if d.settings.transaction then (.line "COMMIT;", { d with stage := .done }, conn)
  else (.done, { d with stage := .done }, conn)

/-- The first line behind the tables. -/
def leaveTables (d : Dump) (conn : Connection) : LineResult × Dump × Connection :=
  if d.settings.includeViews then
    match conn.views with
    | (.error e, conn) => (.error e, d.fail, conn)
    | (.ok [], conn) => d.close conn
    | (.ok (view :: views), conn) =>
      (.line (view ++ ";"), { d with stage := .closing, ready := views.map (· ++ ";") }, conn)
  else d.close conn

/-- The first line of the next table that has one. -/
def fromTables (cancelled : Bool) (d : Dump) :
    List String → Connection → LineResult × Dump × Connection
  | [], conn => d.leaveTables conn
  | table :: tables, conn =>
    match d.begin cancelled table conn with
    | (.error e, conn) => (.error e, d.fail, conn)
    | (.ok d, conn) =>
      match { d with stage := .tables tables }.emit? cancelled conn with
      | (some result, d, conn) => (result, d, conn)
      | (none, d, conn) => fromTables cancelled d tables conn

/-- The first line of the script. The tables are asked for before it is written. -/
def fromOpening (d : Dump) (conn : Connection) : LineResult × Dump × Connection :=
  match conn.tables d.settings.exclusions with
  | (.error e, conn) => (.error e, d.fail, conn)
  | (.ok names, conn) =>
    (.line "PRAGMA foreign_keys=OFF;",
      { d with
        stage := .tables (names.filter (!isInternal ·))
        ready := if d.settings.transaction then ["BEGIN TRANSACTION;"] else [] }, conn)

/-- The next line. -/
def next (cancelled : Bool) (d : Dump) (conn : Connection) : LineResult × Dump × Connection :=
  match d.emit? cancelled conn with
  | (some result, d, conn) => (result, d, conn)
  | (none, d, conn) =>
    match d.stage with
    | .opening => d.fromOpening conn
    | .tables names => d.fromTables cancelled names conn
    | .closing => d.close conn
    | .done => (.done, d, conn)

/-- The number of rows that a query yields. -/
def rowsIn (patience : Nat) (backend : Backend) (sql : String) : Nat :=
  (backend sql).sets.foldr (fun set n => set.rows.reach patience + n) 0

/-- A bound on the lines that are left. The tables that were not asked for yet are looked up. -/
def reach (patience : Nat) (d : Dump) (conn : Connection) : Nat :=
  let names :=
    match d.stage with
    | .opening => match (conn.tables d.settings.exclusions).1 with
      | .ok names => names
      | .error _ => []
    | .tables names => names
    | .closing | .done => []
  let lines (table : String) : Nat :=
    rowsIn 0 conn.backend (Catalog.definitionsQuery table) +
      rowsIn patience conn.backend (Statement.ofText (rowsQuery table)).sql + 2
  d.ready.length + ((d.rows.map (·.reach patience)).getD 0) + d.attached.length +
    names.foldr (fun table n => lines table + n) 0 + rowsIn 0 conn.backend Catalog.viewsQuery + 4

/-- All lines that are left, and the error that ends them, if one does; the first argument bounds
their number. -/
def linesWithin (cancelled : Bool) :
    Nat → Dump → Connection → List String × Option Error × Dump × Connection
  | 0, d, conn => ([], none, d, conn)
  | fuel + 1, d, conn =>
    match d.next cancelled conn with
    | (.line text, d, conn) =>
      let (more, e, d, conn) := linesWithin cancelled fuel d conn
      (text :: more, e, d, conn)
    | (.error e, d, conn) => ([], some e, d, conn)
    | (.done, d, conn) => ([], none, d, conn)

/-- All lines that are left, and the error that ends them, if one does. -/
def lines (cancelled : Bool) (d : Dump) (conn : Connection) :
    List String × Option Error × Dump × Connection :=
  linesWithin cancelled (d.reach 0 conn) d conn

/-- Writes the lines that are left; the first argument bounds their number. -/
def writeWithin (cancelled : Bool) :
    Nat → Dump → Connection → Sink → Option Error × Connection × Sink
  | 0, _, conn, sink => (none, conn, sink)
  | fuel + 1, d, conn, sink =>
    match d.next cancelled conn with
    | (.line text, d, conn) =>
      match sink.putAll [.line text] with
      | (none, sink) => writeWithin cancelled fuel d conn sink
      | (some e, sink) => (some e, conn, sink)
    | (.error e, _, conn) => (some e, conn, sink)
    | (.done, _, conn) => (none, conn, sink)

/-- Writes the lines that are left, up to the first error. A sink that is full stops an endless
table. -/
def write (cancelled : Bool) (d : Dump) (conn : Connection) (sink : Sink) :
    Option Error × Connection × Sink :=
  writeWithin cancelled (d.reach (sink.room.getD 0 + 1) conn) d conn sink

end Dump

end SqlConsole
