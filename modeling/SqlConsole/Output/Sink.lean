import SqlConsole.Error
import SqlConsole.Text.Utf8

/-!
# Where output goes

A `Sink` takes bytes until its room is used up. What it is given is cut at that point, so that
exactly the first bytes of the output get through, and the write fails.
-/

namespace SqlConsole

/-- A destination of output. -/
structure Sink where
  /-- The number of bytes that it still takes; no limit if there is none. -/
  room : Option Nat := none
  written : List UInt8 := []
  deriving Repr

/-- Bytes that are written together, and the error if they cannot be. -/
structure Chunk where
  bytes : List UInt8
  failure : String → Error

namespace Sink

/-- What a write says that finds no room. -/
def fullMessage : String := "pipe"

/-- Writes as many of the bytes as there is room for; tells whether these were all. -/
def put (s : Sink) (bytes : List UInt8) : Bool × Sink :=
  match s.room with
  | none => (true, { s with written := s.written ++ bytes })
  | some room =>
    (bytes.length ≤ room,
      { room := some (room - bytes.length), written := s.written ++ bytes.take room })

/-- Writes chunks one after the other, up to the first that fails. -/
def putAll (s : Sink) : List Chunk → Option Error × Sink
  | [] => (none, s)
  | chunk :: chunks =>
    match s.put chunk.bytes with
    | (true, s) => s.putAll chunks
    | (false, s) => (some (chunk.failure fullMessage), s)

end Sink

namespace Chunk

/-- A line of text. -/
def line (text : String) : Chunk := ⟨Text.Utf8.encode (text.toList ++ ['\n']), .write⟩

end Chunk

/-- Reports an error the way the console does. -/
def Error.print (e : Error) (sink : Sink) : Option Error × Sink :=
  sink.putAll [.line ("Error: " ++ e.message)]

end SqlConsole
