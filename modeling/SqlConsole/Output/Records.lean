import SqlConsole.Output.Printer
import SqlConsole.Text.Joined
import SqlConsole.Value.Form

/-!
# JSON records

A result set is written as one line: an array of objects whose fields are the columns, in
increasing order of their names, and whose values are strings. A result set without rows writes
nothing.
-/

namespace SqlConsole.Records

/-- A character within a JSON string. -/
def escape (c : Char) : List Char :=
  match c with
  | '"' => ['\\', '"']
  | '\\' => ['\\', '\\']
  | '\x08' => ['\\', 'b']
  | '\x0c' => ['\\', 'f']
  | '\n' => ['\\', 'n']
  | '\r' => ['\\', 'r']
  | '\t' => ['\\', 't']
  | c =>
    if c.toNat < 0x20 then
      ['\\', 'u', '0', '0', Nat.digitChar (c.toNat / 16), Nat.digitChar (c.toNat % 16)]
    else [c]

/-- A JSON string. -/
def string (s : String) : List Char := '"' :: s.toList.flatMap escape ++ ['"']

/-- Puts a field in its place among fields in increasing order; it replaces one of its name. -/
def insert (name value : String) : List (String × String) → List (String × String)
  | [] => [(name, value)]
  | (n, v) :: fields =>
    if name = n then (name, value) :: fields
    else if name < n then (name, value) :: (n, v) :: fields
    else (n, v) :: insert name value fields

/-- The fields of a row in increasing order. Columns without a cell and cells without a column are
left out; of columns of the same name the last one counts. -/
def fields (columns cells : List String) : List (String × String) :=
  (columns.zip cells).foldl (fun fs (name, value) => insert name value fs) []

/-- A field of an object. -/
def field (f : String × String) : List Char := string f.1 ++ ':' :: string f.2

/-- An object. -/
def object (fs : List (String × String)) : List Char :=
  '\x7b' :: Text.joined [','] (fs.map field) ++ ['\x7d']

/-- Text that is written together. -/
def chunk (failure : String → Error) (cs : List Char) : Chunk := ⟨Text.Utf8.encode cs, failure⟩

/-- Remembers the column names and whether there was a row. -/
def printer : Printer (List String × Bool) where
  start columns := ((columns, false), [])
  row := fun (columns, started) cells =>
    ((columns, true),
      [chunk .write [if started then ',' else '['],
        chunk .writeObject (object (fields columns (cells.write .json)))])
  close := fun (_, started) => if started then [chunk .write [']', '\n']] else []
  abort _ := []

end SqlConsole.Records
