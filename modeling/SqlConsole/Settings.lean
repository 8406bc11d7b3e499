import SqlConsole.Error

/-!
# Settings

What the user chooses: how results are printed (`PrintSettings`), which tables are hidden
(`Exclusions`) and what a dump holds (`DumpSettings`).
-/

namespace SqlConsole

/-- How results are written. -/
inductive OutputMode where
  /-- Aligned columns under a header in capitals. -/
  | table
  /-- Comma-separated values. -/
  | csv
  /-- An array of objects. -/
  | json
  deriving DecidableEq, Repr

namespace OutputMode

def name : OutputMode → String
  | table => "table"
  | csv => "csv"
  | json => "json"

/-- The mode of a name; names are matched exactly. -/
def ofName? (name : String) : Option OutputMode :=
  [table, csv, json].find? (·.name == name)

/-- The mode that the user asks for. -/
def parse (name : String) : Except Error OutputMode :=
  match ofName? name with
  | some mode => .ok mode
  | none => .error (.unknownMode name)

end OutputMode

/-- How result sets are printed. -/
structure PrintSettings where
  mode : OutputMode := .table
  /-- Whether tables and CSV begin with the column names. -/
  withHeader : Bool := true
  deriving DecidableEq, Repr

/-- Which tables are left out of listings and dumps. -/
structure Exclusions where
  /-- Names that begin with one of these are left out. -/
  prefixes : List String
  /-- These names are left out. -/
  names : List String
  deriving DecidableEq, Repr

namespace Exclusions

/-- Leaves out the tables that the database and its replication keep for themselves. -/
def standard : Exclusions :=
  ⟨["sqlite_"], ["_litestream_seq", "_litestream_lock", "libsql_wasm_func_table"]⟩

/-- Leaves out nothing. -/
def none : Exclusions := ⟨[], []⟩

def withPrefix (e : Exclusions) (start : String) : Exclusions :=
  { e with prefixes := e.prefixes ++ [start] }

def withName (e : Exclusions) (name : String) : Exclusions :=
  { e with names := e.names ++ [name] }

/-- Whether a table is kept. -/
def allows (e : Exclusions) (name : String) : Bool :=
  !e.names.contains name &&
    !e.prefixes.any fun start => start.toList.isPrefixOf name.toList

end Exclusions

/-- What a dump holds. -/
structure DumpSettings where
  exclusions : Exclusions := .standard
  /-- Whether the script is one transaction. -/
  transaction : Bool := true
  /-- Whether the views follow the tables. -/
  includeViews : Bool := true
  deriving DecidableEq, Repr

end SqlConsole
