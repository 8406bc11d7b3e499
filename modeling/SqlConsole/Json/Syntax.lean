import SqlConsole.Json.Numeral

/-!
# JSON documents

A document as it is spelled: numbers are numerals, and an object keeps all its fields in order,
those of the same name included. A string that holds half of a surrogate pair has no text.
`sound` tells whether a document can be read as a whole: every string has a text, every number is
in range, and nothing is nested too deeply. Parts of a document that are skipped need not be.
-/

namespace SqlConsole

/-- A JSON document. -/
inductive Json where
  | null
  | bool (b : Bool)
  | number (n : Json.Numeral)
  | string (s : Option String)
  | array (items : List Json)
  | object (fields : List (Option String × Json))

namespace Json

/-- Arrays and objects are nested less deeply than this. -/
def maxDepth : Nat := 128

mutual

/-- Whether a document can be read as a whole with `depth` levels of nesting to go. -/
def soundWithin (depth : Nat) : Json → Bool
  | null | bool _ => true
  | number n => n.value?.isSome
  | string s => s.isSome
  | array items => 1 < depth && soundItems (depth - 1) items
  | object fields => 1 < depth && soundFields (depth - 1) fields

def soundItems (depth : Nat) : List Json → Bool
  | [] => true
  | j :: js => soundWithin depth j && soundItems depth js

def soundFields (depth : Nat) : List (Option String × Json) → Bool
  | [] => true
  | (name, j) :: fs => name.isSome && soundWithin depth j && soundFields depth fs

end

/-- Whether a document can be read as a whole. -/
def sound (j : Json) : Bool := soundWithin maxDepth j

end Json

end SqlConsole
