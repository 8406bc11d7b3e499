import SqlConsole.Statement.Fragment
import SqlConsole.Text.Joined

/-!
# Statements

`Statement.split` gives the statements of a text: its fragments, those without any text left out.
`isComplete` tells whether a text that is being typed ends with a finished statement.
-/

namespace SqlConsole

open Text

/-- One SQL statement, cut out of a text. -/
structure Statement where
  /-- Where the statement stands in the text, in bytes, its `;` left out. -/
  span : Span
  /-- Its text, trimmed and without comments. -/
  sql : String
  /-- Whether a `;` ended it. -/
  terminated : Bool
  deriving DecidableEq, Repr

namespace Statement

/-- A text taken as one finished statement, comments and all. -/
def ofText (text : String) : Statement :=
  ⟨⟨0, byteSize text.toList⟩, String.ofList (trim text.toList), true⟩

def ofFragment (f : Fragment) : Statement := ⟨f.span, String.ofList f.sql, f.terminated⟩

/-- Whether there is nothing to run. -/
def isBlank (s : Statement) : Bool := (trim s.sql.toList).isEmpty

/-- The statements of a text, in order. -/
def split (text : String) : List Statement :=
  ((Scan.fragments text.toList).filter (!·.sql.isEmpty)).map ofFragment

end Statement

/-- Whether a text ends with a finished statement: nothing is left open, and the last token
outside comments is a `;`. -/
def isComplete (text : String) : Bool := (Scan.run {} text.toList).2.atEnd

/-- Whether every statement but the last was ended by a `;`. -/
def Statement.endedButLast : List Statement → Bool
  | [] | [_] => true
  | s :: ss => s.terminated && endedButLast ss

/-- Whether the statements of a text are well cut: none is empty, each span is a piece of the
text, only the last may lack its `;`, and joined by `;` they are split into as many again. -/
def Statement.wellCut (text : String) : Bool :=
  let statements := split text
  statements.all (fun s => !s.sql.isEmpty && (slice? text.toList s.span).isSome) &&
    endedButLast statements &&
    (split (join ";" (statements.map (·.sql)))).length == statements.length

end SqlConsole
