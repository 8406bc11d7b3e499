import SqlConsole.Storage.Table

/-!
# Databases for single queries

Small databases that answer one batch each: one that takes absolute values, one whose trigger
raises an error, and one that counts without end.
-/

namespace SqlConsole.Storage

/-- The value of one integer. -/
def number (n : Int) : Value := .int (Int64.ofInt n)

/-- The absolute values of numbers up to the first that has none in 64 bits, and whether there is
such a one. -/
def absolutes : List Int64 → List Row × Bool
  | [] => ([], false)
  | n :: ns =>
    if n == Int64.minValue then ([], true)
    else
      let (rows, overflow) := absolutes ns
      ([number n.toInt.natAbs] :: rows, overflow)

/-- Asks for the absolute values of the numbers in a table, then for their number. -/
def absoluteBatch : String :=
  "SELECT abs(v) AS v FROM t ORDER BY rowid; SELECT count(*) AS n FROM t;"

def absoluteBackend (ns : List Int64) : Backend :=
  let (rows, overflow) := absolutes ns
  .ofReplies [
    ("SELECT abs(v) AS v FROM t ORDER BY rowid",
      .stepped ["v"] rows (if overflow then some "integer overflow" else none)),
    ("SELECT count(*) AS n FROM t", .stepped ["n"] [[number ns.length]] none)]

/-- Counts the rows of an empty table, inserts one, which its trigger forbids, and goes on. -/
def raiseBatch : String :=
  "SELECT count(*) AS n FROM t; INSERT INTO t VALUES(1); SELECT count(*) AS n FROM t;"

def raiseBackend (message : String) : Backend :=
  .ofReplies [
    ("SELECT count(*) AS n FROM t", .stepped ["n"] [[number 0]] none),
    ("INSERT INTO t VALUES(1)", { refusal := some message })]

/-- Counts from 1 without end, then asks for one more row. -/
def countBatch : String :=
  "WITH RECURSIVE c(x) AS (SELECT 1 UNION ALL SELECT x + 1 FROM c) SELECT x FROM c; " ++
    "SELECT 7 AS after;"

def oneBatch : String := "SELECT 1 AS one;"

def countBackend : Backend :=
  .ofReplies [
    ("WITH RECURSIVE c(x) AS (SELECT 1 UNION ALL SELECT x + 1 FROM c) SELECT x FROM c",
      { sets := [⟨["x"], .counting 1⟩] }),
    ("SELECT 7 AS after", .stepped ["after"] [[number 7]] none),
    ("SELECT 1 AS one", .stepped ["one"] [[number 1]] none)]

end SqlConsole.Storage
