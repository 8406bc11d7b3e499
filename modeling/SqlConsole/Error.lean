import SqlConsole.Base64
import SqlConsole.Text.Quoted

/-!
# Errors

Every failure of the console has a cause of its own. `Error.message` is what the user reads.
`Error.ofBackend` sorts the messages of a database into causes: two of them are worded for the
user, all others are passed on as they are.
-/

namespace SqlConsole

/-- A cell that has no value. -/
inductive Unsupported where
  /-- A number out of range, or a string without a text. -/
  | unreadable
  | array
  /-- An object without a field `base64`. -/
  | noBase64
  /-- An object whose field `base64` is no string. -/
  | base64NotText
  | base64Fault (fault : Base64.Fault)
  deriving DecidableEq, Repr

namespace Unsupported

def message : Unsupported → String
  | unreadable => "unreadable cell"
  | array => "array"
  | noBase64 => "map without a \"base64\" field"
  | base64NotText => "map with a non-string \"base64\" field"
  | base64Fault fault => "unable to decode base64 value: " ++ fault.message

end Unsupported

/-- Why something could not be done. -/
inductive Error where
  /-- The database refused a statement or failed in the middle of it. -/
  | database (message : String)
  /-- The database takes no transaction that is sent in pieces. -/
  | noTransactions
  /-- The user cancelled. -/
  | cancelled
  /-- A cell came in a shape that no value has. -/
  | unsupportedCell (what : Unsupported)
  /-- The catalog could not be read. -/
  | catalog (source : Error)
  /-- The connection's last user broke off while using it. -/
  | brokenConnection
  /-- The output took no more text. -/
  | write (message : String)
  /-- The output took no more text within a CSV record. -/
  | writeRecord (message : String)
  /-- The output took no more text within a JSON object. -/
  | writeObject (message : String)
  /-- There is no output mode of this name. -/
  | unknownMode (name : String)
  deriving DecidableEq, Repr

namespace Error

/-- What a database answers that takes transactions only as one text. -/
def transactionRefusal : String := "interactive transaction not allowed in HTTP queries"

/-- Whether one list stands somewhere within another. -/
def within (inner : List Char) : List Char → Bool
  | [] => inner.isEmpty
  | c :: cs => inner.isPrefixOf (c :: cs) || within inner cs

/-- The cause behind a message of the database. -/
def ofBackend (message : String) : Error :=
  if within transactionRefusal.toList message.toList then noTransactions
  else if within "context canceled".toList message.toList || message == "interrupted" then
    cancelled
  else database message

/-- What the user reads. -/
def message : Error → String
  | database message => message
  | noTransactions =>
    "transactions are only supported in the shell using semicolons to separate each statement.\n" ++
      "For example: \"BEGIN; [your SQL statements]; END\""
  | cancelled => "query canceled by the user"
  | unsupportedCell what => "unsupported type: " ++ what.message
  | catalog source => "catalog lookup failed: " ++ source.message
  | brokenConnection => "connection is unusable: a previous execution panicked while holding it"
  | write message | writeRecord message | writeObject message => message
  | unknownMode name =>
    "invalid output mode " ++ Text.quoted name ++ ", valid modes are table, csv, json"

/-- Whether the error only says that the user cancelled. -/
def isCancelled : Error → Bool
  | cancelled => true
  | catalog source => source.isCancelled
  | _ => false

/-- The error as one of reading the catalog, if it is not one already. -/
def inCatalog : Error → Error
  | catalog source => catalog source
  | e => catalog e

end Error

end SqlConsole
