import SqlConsole.Error
import SqlConsole.Json.Parser
import SqlConsole.Value

/-!
# Values from JSON

Remote databases send their cells as JSON. Bytes travel as an object whose field `base64` holds
them; nothing else may be an object, and nothing an array.
-/

namespace SqlConsole.Value

/-- An integer of 64 bits, signed if it fits. -/
def ofInteger (n : Int) : Value :=
  if n < Nat.pow 2 63 then int (Int64.ofInt n) else uint (UInt64.ofNat n.toNat)

/-- What an object holds under a name. Of several fields of that name the last one counts. -/
def lastField? (name : String) : List (Option String × Json) → Option Json
  | [] => none
  | (key, j) :: fields => (lastField? name fields).or (if key == some name then some j else none)

/-- The value of a cell that was sent as JSON. -/
def ofJson : Json → Except Error Value
  | .null => .ok null
  | .bool b => .ok (bool b)
  | .number n => match n.value? with
    | some (.integer i) => .ok (ofInteger i)
    | some (.float x) => .ok (float x)
    | none => .error (.unsupportedCell .unreadable)
  | .string (some s) => .ok (text s)
  | .string none => .error (.unsupportedCell .unreadable)
  | .array _ => .error (.unsupportedCell .array)
  | .object fields => match lastField? "base64" fields with
    | some (.string (some s)) => match Base64.decode s with
      | .ok bs => .ok (bytes bs)
      | .error fault => .error (.unsupportedCell (.base64Fault fault))
    | some _ => .error (.unsupportedCell .base64NotText)
    | none => .error (.unsupportedCell .noBase64)

/-- The value of a cell that was sent as the text of a JSON document, if it is one that can be read
as a whole. -/
def parseCell? (text : String) : Option (Except Error Value) :=
  ((Json.parse? text).filter (·.sound)).map ofJson

end SqlConsole.Value
