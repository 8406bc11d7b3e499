import SqlConsole.Text.Enclosed

/-!
# Identifiers

A name stands for itself in SQL when it is a word of ASCII letters, digits and underscores that
does not begin with a digit and is no keyword. Any other name is put in double quotes.
-/

namespace SqlConsole.Identifier

/-- The keywords of SQLite in capitals, in increasing order. -/
def keywords : Array String :=
  #["ABORT", "ACTION", "ADD", "AFTER", "ALL", "ALTER", "ALWAYS", "ANALYZE", "AND", "AS", "ASC",
    "ATTACH", "AUTOINCREMENT", "BEFORE", "BEGIN", "BETWEEN", "BY", "CASCADE", "CASE", "CAST",
    "CHECK", "COLLATE", "COLUMN", "COMMIT", "CONFLICT", "CONSTRAINT", "CREATE", "CROSS", "CURRENT",
    "CURRENT_DATE", "CURRENT_TIME", "CURRENT_TIMESTAMP", "DATABASE", "DEFAULT", "DEFERRABLE",
    "DEFERRED", "DELETE", "DESC", "DETACH", "DISTINCT", "DO", "DROP", "EACH", "ELSE", "END",
    "ESCAPE", "EXCEPT", "EXCLUDE", "EXCLUSIVE", "EXISTS", "EXPLAIN", "FAIL", "FILTER", "FIRST",
    "FOLLOWING", "FOR", "FOREIGN", "FROM", "FULL", "GENERATED", "GLOB", "GROUP", "GROUPS",
    "HAVING", "IF", "IGNORE", "IMMEDIATE", "IN", "INDEX", "INDEXED", "INITIALLY", "INNER",
    "INSERT", "INSTEAD", "INTERSECT", "INTO", "IS", "ISNULL", "JOIN", "KEY", "LAST", "LEFT",
    "LIKE", "LIMIT", "MATCH", "MATERIALIZED", "NATURAL", "NO", "NOT", "NOTHING", "NOTNULL", "NULL",
    "NULLS", "OF", "OFFSET", "ON", "OR", "ORDER", "OTHERS", "OUTER", "OVER", "PARTITION", "PLAN",
    "PRAGMA", "PRECEDING", "PRIMARY", "QUERY", "RAISE", "RANGE", "RECURSIVE", "REFERENCES",
    "REGEXP", "REINDEX", "RELEASE", "RENAME", "REPLACE", "RESTRICT", "RETURNING", "RIGHT",
    "ROLLBACK", "ROW", "ROWS", "SAVEPOINT", "SELECT", "SET", "TABLE", "TEMP", "TEMPORARY", "THEN",
    "TIES", "TO", "TRANSACTION", "TRIGGER", "UNBOUNDED", "UNION", "UNIQUE", "UPDATE", "USING",
    "VACUUM", "VALUES", "VIEW", "VIRTUAL", "WHEN", "WHERE", "WINDOW", "WITH", "WITHOUT"]

/-- Whether `word` is among the entries of an ordered array from `low` up to `high`. The range is
halved until it is empty. -/
def search (entries : Array String) (word : String) (low high : Nat) : Bool :=
  if low < high then
    let middle := (low + high) / 2
    match entries[middle]? with
    | none => false
    | some entry =>
      if entry == word then true
      else if entry < word then search entries word (middle + 1) high
      else search entries word low middle
  else false
termination_by high - low

/-- Whether a name is a keyword, in any letter case. -/
def isKeyword (name : List Char) : Bool :=
  search keywords (String.ofList (name.map Char.toUpper)) 0 keywords.size

/-- Whether a name has to be quoted. -/
def needsQuotes (name : String) : Bool :=
  match name.toList with
  | [] => true
  | c :: cs =>
    c.isDigit || !(c :: cs).all (fun c => c.isAlphanum || c == '_') || isKeyword (c :: cs)

/-- A name in double quotes. -/
def quoted (name : String) : List Char := Text.enclosed '"' name.toList

/-- A name as it is written in SQL, in quotes where it needs them. -/
def write (name : String) : List Char :=
  if needsQuotes name then quoted name else name.toList

end SqlConsole.Identifier
