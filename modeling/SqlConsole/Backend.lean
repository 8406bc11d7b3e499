import SqlConsole.Value

/-!
# Databases

A database answers the text of a statement with a `Reply`: it refuses the statement, or hands out
result sets one after the other and then may still fail. A `Backend` gives the reply to every
text. The rows of a result set are handed out one at a time (`Rows.next?`); some result sets have
no end.
-/

namespace SqlConsole

/-- The rows of a result set that were not handed out yet. -/
inductive Rows where
  | finite (rows : List Row)
  /-- The same rows over and over. -/
  | cyclic (rows : List Row)
  /-- The numbers from `n` on, one in each row. -/
  | counting (n : Nat)
  deriving Repr

namespace Rows

/-- The next row and the rows behind it. -/
def next? : Rows → Option (Row × Rows)
  | finite [] => none
  | finite (row :: rows) => some (row, finite rows)
  | cyclic [] => none
  | cyclic (row :: rows) => some (row, cyclic (rows ++ [row]))
  | counting n => some ([.int (Int64.ofNat n)], counting (n + 1))

/-- The number of rows; `patience` if there is no end to them. -/
def reach (patience : Nat) : Rows → Nat
  | finite rows => rows.length
  | cyclic _ | counting _ => patience

end Rows

/-- One table that a statement yields. -/
structure ResultSet where
  columns : List String
  rows : Rows
  deriving Repr

/-- How a database answers a statement. -/
structure Reply where
  /-- The message with which it refuses the statement before anything else. -/
  refusal : Option String := none
  sets : List ResultSet := []
  /-- The message with which it fails behind the last result set. -/
  failure : Option String := none
  deriving Repr

/-- The reply to every text of a statement. -/
abbrev Backend := String → Reply

/-- A reply written down in advance. -/
structure Script where
  sets : List (List String × List Row)
  refusal : Option String := none
  failure : Option String := none
  /-- Whether the rows of each result set are repeated for ever. -/
  endless : Bool := false
  deriving Repr

namespace Script

/-- Plays a script. -/
def reply (s : Script) : Reply :=
  { refusal := s.refusal
    sets := s.sets.map fun (columns, rows) =>
      ⟨columns, if s.endless then .cyclic rows else .finite rows⟩
    failure := s.failure }

end Script

namespace Backend

/-- One result set without columns and rows. -/
def silence : Reply := { sets := [⟨[], .finite []⟩] }

/-- Answers each text with its reply, the last one if there are several, and any other text with
silence. -/
def ofReplies (replies : List (String × Reply)) : Backend := fun sql =>
  match replies.reverse.find? (·.1 == sql) with
  | some (_, reply) => reply
  | none => silence

/-- Answers each text by its script. -/
def ofScripts (scripts : List (String × Script)) : Backend :=
  ofReplies (scripts.map fun (sql, script) => (sql, script.reply))

end Backend

/-- A connection to a database, with a record of its use. -/
structure Connection where
  backend : Backend
  /-- Whether an earlier user broke off while using it. -/
  broken : Bool := false
  /-- The statements that were run, in order. -/
  log : List String := []
  /-- The number of rows that were fetched. -/
  fetched : Nat := 0

end SqlConsole
