import SqlConsole.Output.Printer
import SqlConsole.Value.Form

/-!
# Comma-separated values

A record is a line of fields with commas between them. A field that holds a comma, a quote or a
line break is put in quotes, with quotes inside doubled, and a record that would be empty is a pair
of quotes. Records gather in a buffer, which is written when the next bytes do not fit, and at the
end.
-/

namespace SqlConsole.Csv

/-- Bytes that are never parted by the buffer. -/
abbrev Atom := List UInt8

def quote : UInt8 := 34

/-- Whether a byte makes its field need quotes. -/
def needsQuotes (b : UInt8) : Bool := b == 44 || b == quote || b == 13 || b == 10

/-- A field. -/
def field (bytes : List UInt8) : List Atom :=
  if bytes.any needsQuotes then
    [quote] :: bytes.map (fun b => if b == quote then [quote, quote] else [b]) ++ [[quote]]
  else bytes.map ([·])

/-- Fields with commas between them. -/
def fields : List (List UInt8) → List Atom
  | [] => []
  | [f] => field f
  | f :: fs => field f ++ [44] :: fields fs

/-- A record with its line end. -/
def record (cells : List String) : List Atom :=
  let atoms := fields (cells.map fun cell => Text.Utf8.encode cell.toList)
  (if atoms.isEmpty then [[quote, quote]] else atoms) ++ [[10]]

/-- Output held back, last byte first. -/
structure Buffer where
  size : Nat := 0
  held : List UInt8 := []

/-- The number of bytes that a buffer holds. -/
def capacity : Nat := 8192

namespace Buffer

/-- The bytes in their order. -/
def bytes (b : Buffer) : List UInt8 := b.held.reverse

/-- Takes in more bytes; gives the full buffers that have to be written first. -/
def add (b : Buffer) : List Atom → Buffer × List (List UInt8)
  | [] => (b, [])
  | atom :: atoms =>
    if b.size + atom.length ≤ capacity then
      add ⟨b.size + atom.length, atom.reverse ++ b.held⟩ atoms
    else
      let (last, full) := add ⟨atom.length, atom.reverse⟩ atoms
      (last, b.bytes :: full)

end Buffer

/-- Takes in a record and writes the buffers that it fills. -/
def write (b : Buffer) (cells : List String) : Buffer × List Chunk :=
  let (b, full) := b.add (record cells)
  (b, full.map fun bytes => ⟨bytes, .writeRecord⟩)

/-- Writes the column names and the rows as records. -/
def printer (withHeader : Bool) : Printer Buffer where
  start columns := if withHeader then write {} columns else ({}, [])
  row b cells := write b (cells.write .csv)
  close b := [⟨b.bytes, .write⟩]
  abort b := [⟨b.bytes, .write⟩]

end SqlConsole.Csv
