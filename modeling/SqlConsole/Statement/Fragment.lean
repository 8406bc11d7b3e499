import SqlConsole.Text.Blank
import SqlConsole.Text.Slice
import SqlConsole.Statement.Trigger

/-!
# Fragments of SQL text

`Scan.fragments` cuts a text at the `;` that separate statements. It reads one character at a time
and looks at the one behind it. A `;` separates when it stands outside quotes, brackets and
comments and no trigger body is open. Each comment counts as one space in the fragment's text; the
newline that ends a line comment is not part of the comment.

Nothing is malformed: a quote or a comment that is never closed runs to the end of the text.

A doubled quote needs no rule. Read as the end of one quoted token and the start of another it
leaves the same fragments.
-/

namespace SqlConsole

open Text

/-- Where in the lexical structure of a text one is. -/
inductive Mode where
  /-- Outside quotes and comments. -/
  | plain
  /-- Inside a token that the given quote character ends. -/
  | quoted (quote : Char)
  /-- Inside a token that `]` ends. -/
  | bracketed
  /-- Inside a comment that the end of the line ends. -/
  | lineComment
  /-- Before the `*` that opens a block comment. -/
  | blockOpening
  /-- Inside a block comment. -/
  | blockComment
  /-- Before the `/` that closes a block comment. -/
  | blockClosing
  deriving DecidableEq, Repr

/-- A piece of text up to a separating `;` or to the end of the text. -/
structure Fragment where
  /-- Where the piece stands in the text, the separator left out. -/
  span : Span
  /-- The piece without its comments, trimmed. -/
  sql : List Char
  /-- Whether a `;` ended it. -/
  terminated : Bool
  deriving DecidableEq, Repr

/-- A reading of a text, stopped between two characters. -/
structure Scan where
  mode : Mode := .plain
  nesting : Nesting := {}
  /-- Whether the last character outside comments that is no space is a `;`. -/
  settled : Bool := false
  /-- The letters read so far of the word at hand, last first. -/
  word : List Char := []
  /-- The fragment at hand without its comments, last character first. -/
  kept : List Char := []
  /-- Where the fragment at hand begins. -/
  start : Nat := 0
  /-- The number of bytes read. -/
  pos : Nat := 0
  deriving DecidableEq, Repr

/-- The characters of words: ASCII letters and digits, `_`, `$` and all that is not ASCII. -/
def isWordChar (c : Char) : Bool :=
  c.isAlphanum || c == '_' || c == '$' || 0x80 ≤ c.toNat

/-- The characters that open a token which the same character closes: `'`, `"` and the backtick. -/
def isQuote (c : Char) : Bool := c == '\'' || c == '"' || c == '\x60'

namespace Scan

/-- Whether a `;` at this point separates statements. -/
def separates (s : Scan) : Bool := s.mode == .plain && s.nesting.depth == 0

/-- The fragment at hand, were it to end here. -/
def fragment (s : Scan) (terminated : Bool) : Fragment :=
  ⟨⟨s.start, s.pos⟩, trim s.kept.reverse, terminated⟩

/-- Past a separating `;`. -/
def separate (s : Scan) : Scan :=
  { s with
    nesting := {}, settled := true, word := [], kept := []
    start := s.pos + 1, pos := s.pos + 1 }

/-- Past one character outside quotes and comments. -/
def stepPlain (s : Scan) (c : Char) (next : Option Char) : Scan :=
  if c == '-' && next == some '-' then
    { s with mode := .lineComment, kept := ' ' :: s.kept }
  else if c == '/' && next == some '*' then
    { s with mode := .blockOpening, kept := ' ' :: s.kept }
  else if isQuote c then
    { s with mode := .quoted c, settled := false, kept := c :: s.kept }
  else if c == '[' then
    { s with mode := .bracketed, settled := false, kept := c :: s.kept }
  else if isWordChar c then
    if next.any isWordChar then
      { s with word := c :: s.word, settled := false, kept := c :: s.kept }
    else
      { s with
        nesting := s.nesting.read (c :: s.word).reverse, word := []
        settled := false, kept := c :: s.kept }
  else
    { s with settled := if isSpace c then s.settled else c == ';', kept := c :: s.kept }

/-- Past the character `c`, which does not separate; `next` is the one behind it, if any. -/
def step (s : Scan) (c : Char) (next : Option Char) : Scan :=
  let s' :=
    match s.mode with
    | .plain => s.stepPlain c next
    | .quoted quote =>
      { s with mode := if c == quote then .plain else s.mode, kept := c :: s.kept }
    | .bracketed => { s with mode := if c == ']' then .plain else .bracketed, kept := c :: s.kept }
    | .lineComment => if c == '\n' then { s with mode := .plain, kept := c :: s.kept } else s
    | .blockOpening => { s with mode := .blockComment }
    | .blockComment =>
      if c == '*' && next == some '/' then { s with mode := .blockClosing } else s
    | .blockClosing => { s with mode := .plain }
  { s' with pos := s.pos + c.utf8Size }

/-- The fragments of the rest of a text, and the reading at its end. A last fragment without a
separator counts only if it has a character. -/
def run (s : Scan) : List Char → List Fragment × Scan
  | [] => (if s.start < s.pos then [s.fragment false] else [], s)
  | c :: cs =>
    if c == ';' && s.separates then
      let (fs, last) := run s.separate cs
      (s.fragment true :: fs, last)
    else run (s.step c cs.head?) cs

/-- The fragments of a text, in order. -/
def fragments (text : List Char) : List Fragment := (run {} text).1

/-- Whether the last token read is a `;` with nothing left open. -/
def atEnd (s : Scan) : Bool :=
  (s.mode == .plain || s.mode == .lineComment) && s.nesting.depth == 0 && s.settled

end Scan

end SqlConsole
