/-!
# Trigger bodies

A `CREATE TRIGGER` statement holds other statements, each ended by a `;` of its own. `Nesting`
follows the words of one statement and tells how many bodies are open: once the statement has
begun with `CREATE [TEMP | TEMPORARY] TRIGGER`, each `BEGIN` or `CASE` opens one and each `END`
closes one. A `;` separates statements only at depth 0. Words are compared without regard to the
case of ASCII letters.
-/

namespace SqlConsole

/-- How far a statement's first words have spelled `CREATE [TEMP | TEMPORARY] TRIGGER`. -/
inductive Opening where
  /-- No word has been read. -/
  | start
  /-- `CREATE` was read. -/
  | create
  /-- `CREATE TEMP` or `CREATE TEMPORARY` was read. -/
  | temporary
  /-- The statement creates a trigger. -/
  | trigger
  /-- The statement is of another kind. -/
  | other
  deriving DecidableEq, Repr

/-- What the words of a statement have opened so far. -/
structure Nesting where
  opening : Opening := .start
  /-- The number of `BEGIN` and `CASE` words of a trigger that wait for their `END`. -/
  depth : Nat := 0
  deriving DecidableEq, Repr

namespace Nesting

/-- Whether `word` spells `keyword`, which is in capitals, in any letter case. -/
def spells (word : List Char) (keyword : String) : Bool :=
  word.map Char.toUpper == keyword.toList

/-- The nesting after one more word. An `END` with nothing open changes nothing. -/
def read (n : Nesting) (word : List Char) : Nesting :=
  match n.opening with
  | .trigger =>
    if spells word "BEGIN" || spells word "CASE" then { n with depth := n.depth + 1 }
    else if spells word "END" then { n with depth := n.depth - 1 }
    else n
  | .start => { n with opening := if spells word "CREATE" then .create else .other }
  | .create =>
    { n with
      opening :=
        if spells word "TEMP" || spells word "TEMPORARY" then .temporary
        else if spells word "TRIGGER" then .trigger
        else .other }
  | .temporary => { n with opening := if spells word "TRIGGER" then .trigger else .other }
  | .other => n

end Nesting

end SqlConsole
