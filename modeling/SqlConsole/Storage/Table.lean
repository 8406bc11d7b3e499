import SqlConsole.Dump
import SqlConsole.Storage

/-!
# A stored table

A database with one table `t`, whose columns `c0`, `c1`, … have declared types, and what it
answers to the statements that read the table.
-/

namespace SqlConsole

namespace Reply

/-- A statement that yields rows until it fails, if it does. The first row is computed before
anything is handed out, so a failure in its place refuses the statement. -/
def stepped (columns : List String) (rows : List Row) (failure : Option String) : Reply :=
  match rows, failure with
  | [], some message => { refusal := some message }
  | rows, failure => { sets := [⟨columns, .finite rows⟩], failure }

end Reply

/-- The contents of a table. -/
structure StoredTable where
  /-- The declared types of the columns; an empty one is none. -/
  declarations : List String
  rows : List (List StoredCell)

namespace StoredTable

def columns (t : StoredTable) : List String :=
  (List.range t.declarations.length).map fun i => "c" ++ toString i

/-- The statement that makes the table. -/
def definition (t : StoredTable) : String :=
  let column (name declared : String) : String :=
    if declared.isEmpty then name else name ++ " " ++ declared
  "CREATE TABLE t(" ++ Text.join ", " (t.columns.zipWith column t.declarations) ++ ")"

/-- The statement that reads the table. A column that is given as an expression has no declared
type. -/
def selection (t : StoredTable) (asExpressions : Bool) : String :=
  let column (name : String) : String :=
    if asExpressions then "+" ++ name ++ " AS " ++ name else name
  "SELECT " ++ Text.join ", " (t.columns.map column) ++ " FROM t ORDER BY rowid"

/-- The rows as values of the declared types. -/
def typedRows (t : StoredTable) : List Row :=
  t.rows.map fun cells =>
    cells.zipWith
      (fun cell declared => cell.value (if declared.isEmpty then none else some declared))
      t.declarations

/-- The rows as values of no declared types. -/
def untypedRows (t : StoredTable) : List Row := t.rows.map (·.map (·.value none))

/-- The database. -/
def backend (t : StoredTable) : Backend :=
  .ofReplies [
    (t.selection false, .stepped t.columns t.typedRows none),
    (t.selection true, .stepped t.columns t.untypedRows none),
    (Dump.rowsQuery "t", .stepped t.columns t.typedRows none),
    (Catalog.tablesQuery, .stepped ["name"] [[.text "t"]] none),
    (Catalog.definitionsQuery "t",
      .stepped ["type", "sql"] [[.text "table", .text t.definition]] none),
    (Catalog.viewsQuery, .stepped ["sql"] [] none)]

end StoredTable

end SqlConsole
