import SqlConsole.Json.Syntax
import SqlConsole.Settings

/-!
# Settings as JSON

Settings are kept as objects. A field that is missing has its default and one that is unknown is
skipped, but a known field may come only once and must have its type. A list of values stands for
the fields in their order; it may end early. A mode is its name, or an object with the name as its
only field and `null` in it.
-/

namespace SqlConsole

namespace Json

/-- What an object holds under a name, if anything; fails if the name comes twice. -/
def field? (fields : List (Option String × Json)) (name : String) : Option (Option Json) :=
  match fields.filter (·.1 == some name) with
  | [] => some none
  | [(_, j)] => some (some j)
  | _ => none

/-- The values of the fields `names` of a record that is given as an object or as a list; fails if
the names of an object have no text, if a known one comes twice, or if a list is too long. -/
def record? (names : List String) : Json → Option (List (Option Json))
  | object fields => if fields.all (·.1.isSome) then names.mapM (field? fields) else none
  | array items =>
    if items.length ≤ names.length then
      some (items.map some ++ List.replicate (names.length - items.length) none)
    else none
  | _ => none

/-- A value that may be missing. -/
def orDefault {α : Type} (default : α) (read? : Json → Option α) : Option Json → Option α
  | none => some default
  | some j => read? j

def bool? : Json → Option Bool
  | bool b => some b
  | _ => none

def text? : Json → Option String
  | string s => s
  | _ => none

def texts? : Json → Option (List String)
  | array items => items.mapM text?
  | _ => none

def ofText (s : String) : Json := string (some s)

def ofTexts (ss : List String) : Json := array (ss.map ofText)

end Json

namespace OutputMode

def ofJson? : Json → Option OutputMode
  | .string (some name) => ofName? name
  | .object [(some name, .null)] => ofName? name
  | _ => none

def toJson (m : OutputMode) : Json := .ofText m.name

end OutputMode

namespace PrintSettings

def ofJson? (j : Json) : Option PrintSettings := do
  let [mode, header] ← j.record? ["mode", "with_header"] | none
  return ⟨← Json.orDefault .table OutputMode.ofJson? mode, ← Json.orDefault true Json.bool? header⟩

def toJson (o : PrintSettings) : Json :=
  .object [(some "mode", o.mode.toJson), (some "with_header", .bool o.withHeader)]

end PrintSettings

namespace Exclusions

def ofJson? (j : Json) : Option Exclusions := do
  let [prefixes, names] ← j.record? ["excluded_prefixes", "excluded_names"] | none
  return ⟨← Json.orDefault standard.prefixes Json.texts? prefixes,
    ← Json.orDefault standard.names Json.texts? names⟩

def toJson (f : Exclusions) : Json :=
  .object [(some "excluded_prefixes", .ofTexts f.prefixes),
    (some "excluded_names", .ofTexts f.names)]

end Exclusions

namespace DumpSettings

def ofJson? (j : Json) : Option DumpSettings := do
  let [exclusions, transaction, views] ←
    j.record? ["filter", "transaction", "include_views"] | none
  return ⟨← Json.orDefault .standard Exclusions.ofJson? exclusions,
    ← Json.orDefault true Json.bool? transaction, ← Json.orDefault true Json.bool? views⟩

def toJson (o : DumpSettings) : Json :=
  .object [(some "filter", o.exclusions.toJson), (some "transaction", .bool o.transaction),
    (some "include_views", .bool o.includeViews)]

end DumpSettings

end SqlConsole
