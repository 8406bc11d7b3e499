import SqlConsole.Batch
import SqlConsole.Settings
import SqlConsole.Value.Form

/-!
# The catalog

SQLite describes its tables, indexes, triggers and views in a table of its own. Each function here
asks one question of it. Rows without the cells that are asked for, or with NULL in them, say
nothing. A question that cannot be answered in full is not answered at all: its error is wrapped
as one of the catalog.
-/

namespace SqlConsole

namespace Value

/-- What a cell of the catalog says; NULL says nothing. -/
def catalogText? : Value → Option String
  | null => none
  | v => some (v.write .table)

end Value

namespace Catalog

/-- A text as a SQL literal. -/
def literal (text : String) : String := String.ofList (Text.enclosed '\'' text.toList)

def tablesQuery : String :=
  "SELECT name FROM sqlite_schema WHERE type = 'table' ORDER BY name"

def definitionsQuery (table : String) : String :=
  "SELECT type, sql FROM sqlite_schema WHERE tbl_name = " ++ literal table ++
    " AND sql IS NOT NULL ORDER BY rowid"

def viewsQuery : String :=
  "SELECT sql FROM sqlite_schema WHERE type = 'view' AND sql IS NOT NULL ORDER BY name"

def indexesQuery (table : Option String) : String :=
  "SELECT name FROM sqlite_schema WHERE type = 'index'" ++
    (match table with
      | some pattern => " AND tbl_name LIKE " ++ literal pattern
      | none => "") ++
    " ORDER BY name"

def schemaQuery (pattern : Option String) : String :=
  "SELECT name, sql FROM sqlite_schema WHERE sql IS NOT NULL" ++
    (match pattern with
      | some pattern => " AND name LIKE " ++ literal pattern
      | none => "") ++
    " ORDER BY name"

/-- What the first cells of the rows say. -/
def firsts (rows : List Row) : List String :=
  rows.filterMap fun row => row.head?.bind Value.catalogText?

/-- What the first two cells of the rows say, of those rows where both say something. -/
def pairs (rows : List Row) : List (String × String) :=
  rows.filterMap fun row =>
    match row with
    | a :: b :: _ => do return (← a.catalogText?, ← b.catalogText?)
    | _ => none

end Catalog

/-- The definitions that belong to a table. -/
structure TableDefinitions where
  /-- The definition of the table itself. -/
  own : Option String := none
  /-- Those of its indexes and triggers, in the order of their creation. -/
  attached : List String := []
  deriving DecidableEq, Repr

namespace TableDefinitions

/-- Takes in the definition of an object of some kind. Only the first one of a table counts as
the table's own. -/
def add (d : TableDefinitions) (kind definition : String) : TableDefinitions :=
  if kind == "table" && d.own.isNone then { d with own := some definition }
  else { d with attached := d.attached ++ [definition] }

def ofPairs (pairs : List (String × String)) : TableDefinitions :=
  pairs.foldl (fun d (kind, definition) => d.add kind definition) {}

end TableDefinitions

namespace Connection

/-- Asks the catalog and makes something of the rows of its answer. -/
def ask {α : Type} (conn : Connection) (sql : String) (read : List Row → α) :
    Except Error α × Connection :=
  match conn.query sql with
  | (.ok rows, conn) => (.ok (read rows), conn)
  | (.error e, conn) => (.error e.inCatalog, conn)

/-- The names of the tables, in order. -/
def tables (conn : Connection) (exclusions : Exclusions) :
    Except Error (List String) × Connection :=
  conn.ask Catalog.tablesQuery fun rows => (Catalog.firsts rows).filter exclusions.allows

/-- The definitions that belong to a table. -/
def tableDefinitions (conn : Connection) (table : String) :
    Except Error TableDefinitions × Connection :=
  conn.ask (Catalog.definitionsQuery table) fun rows => .ofPairs (Catalog.pairs rows)

/-- The definitions of the views, in the order of their names. -/
def views (conn : Connection) : Except Error (List String) × Connection :=
  conn.ask Catalog.viewsQuery Catalog.firsts

/-- The names of the indexes, of all tables or of those whose names match a pattern. -/
def indexes (conn : Connection) (table : Option String) :
    Except Error (List String) × Connection :=
  conn.ask (Catalog.indexesQuery table) Catalog.firsts

/-- All definitions as statements, or those of the objects whose names match a pattern. -/
def schema (conn : Connection) (pattern : Option String) (exclusions : Exclusions) :
    Except Error (List String) × Connection :=
  conn.ask (Catalog.schemaQuery pattern) fun rows =>
    ((Catalog.pairs rows).filter (exclusions.allows ·.1)).map (·.2 ++ ";")

end Connection

end SqlConsole
