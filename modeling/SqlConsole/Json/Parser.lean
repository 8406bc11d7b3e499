import SqlConsole.Json.Syntax

/-!
# Reading JSON

`Json.parse?` reads a whole text as one document. White space is the four characters that JSON
allows; numbers have no leading zeros; strings hold no control characters but as escapes.
-/

namespace SqlConsole.Json

def isSpace (c : Char) : Bool := c == ' ' || c == '\t' || c == '\n' || c == '\r'

def skipSpace (cs : List Char) : List Char := cs.dropWhile isSpace

/-- The value of a hexadecimal digit. -/
def hexValue? (c : Char) : Option Nat :=
  if c.isDigit then some (c.toNat - 48)
  else if 'a' ≤ c ∧ c ≤ 'f' then some (c.toNat - 87)
  else if 'A' ≤ c ∧ c ≤ 'F' then some (c.toNat - 55)
  else none

/-- The character that a one-letter escape stands for. -/
def escaped? : Char → Option Char
  | '"' => some '"'
  | '\\' => some '\\'
  | '/' => some '/'
  | 'b' => some '\x08'
  | 'f' => some '\x0c'
  | 'n' => some '\n'
  | 'r' => some '\r'
  | 't' => some '\t'
  | _ => none

/-- The code points of a string up to its closing quote, halves of surrogate pairs included, and
the text behind it. -/
def stringBody? : List Char → Option (List Nat × List Char)
  | '"' :: rest => some ([], rest)
  | '\\' :: 'u' :: a :: b :: c :: d :: rest => do
    let n := 256 * (16 * (← hexValue? a) + (← hexValue? b)) +
      (16 * (← hexValue? c) + (← hexValue? d))
    let (ns, rest) ← stringBody? rest
    return (n :: ns, rest)
  | '\\' :: e :: rest => do
    let c ← escaped? e
    let (ns, rest) ← stringBody? rest
    return (c.toNat :: ns, rest)
  | c :: rest =>
    if c == '\\' || c.toNat < 0x20 then none
    else (stringBody? rest).map fun (ns, rest) => (c.toNat :: ns, rest)
  | [] => none

/-- The characters of code points, each surrogate pair joined; `none` if half of one is left. -/
def joined? : List Nat → Option (List Char)
  | [] => some []
  | n :: ns =>
    if 0xD800 ≤ n ∧ n < 0xDC00 then
      match ns with
      | m :: ms =>
        if 0xDC00 ≤ m ∧ m < 0xE000 then
          (joined? ms).map (Char.ofNat (0x10000 + (n - 0xD800) * 0x400 + (m - 0xDC00)) :: ·)
        else none
      | [] => none
    else if 0xDC00 ≤ n ∧ n < 0xE000 then none
    else (joined? ns).map (Char.ofNat n :: ·)

/-- A string whose opening quote was read: its text, if it has one, and what follows. -/
def string? (cs : List Char) : Option (Option String × List Char) :=
  (stringBody? cs).map fun (ns, rest) => ((joined? ns).map String.ofList, rest)

/-- A number and what follows. -/
def numeral? (cs : List Char) : Option (Numeral × List Char) := do
  let (negative, cs) := match cs with
    | '-' :: rest => (true, rest)
    | _ => (false, cs)
  let whole := cs.takeWhile Char.isDigit
  let cs := cs.dropWhile Char.isDigit
  if whole.isEmpty || (whole.head? == some '0' && 1 < whole.length) then none
  let (fraction, cs) ← match cs with
    | '.' :: rest =>
      if (rest.takeWhile Char.isDigit).isEmpty then none
      else some (rest.takeWhile Char.isDigit, rest.dropWhile Char.isDigit)
    | _ => some ([], cs)
  let (exponent, cs) ← match cs with
    | e :: rest =>
      if e == 'e' || e == 'E' then
        let (below, rest) := match rest with
          | '-' :: rest => (true, rest)
          | '+' :: rest => (false, rest)
          | _ => (false, rest)
        if (rest.takeWhile Char.isDigit).isEmpty then none
        else some (some (below, rest.takeWhile Char.isDigit), rest.dropWhile Char.isDigit)
      else some (none, e :: rest)
    | [] => some (none, [])
  return (⟨negative, whole, fraction, exponent⟩, cs)

mutual

/-- A value and what follows. The first argument bounds the depth of the calls. -/
def value? : Nat → List Char → Option (Json × List Char)
  | 0, _ => none
  | fuel + 1, cs =>
    match skipSpace cs with
    | 'n' :: 'u' :: 'l' :: 'l' :: rest => some (null, rest)
    | 't' :: 'r' :: 'u' :: 'e' :: rest => some (bool true, rest)
    | 'f' :: 'a' :: 'l' :: 's' :: 'e' :: rest => some (bool false, rest)
    | '"' :: rest => (string? rest).map fun (s, rest) => (string s, rest)
    | '[' :: rest =>
      match skipSpace rest with
      | ']' :: rest => some (array [], rest)
      | rest => (items? fuel rest).map fun (js, rest) => (array js, rest)
    | '{' :: rest =>
      match skipSpace rest with
      | '}' :: rest => some (object [], rest)
      | rest => (fields? fuel rest).map fun (fs, rest) => (object fs, rest)
    | cs => (numeral? cs).map fun (n, rest) => (number n, rest)

/-- The items of an array up to its closing bracket, at least one. -/
def items? : Nat → List Char → Option (List Json × List Char)
  | 0, _ => none
  | fuel + 1, cs => do
    let (j, rest) ← value? fuel cs
    match skipSpace rest with
    | ',' :: rest => (items? fuel rest).map fun (js, rest) => (j :: js, rest)
    | ']' :: rest => some ([j], rest)
    | _ => none

/-- The fields of an object up to its closing brace, at least one. -/
def fields? : Nat → List Char → Option (List (Option String × Json) × List Char)
  | 0, _ => none
  | fuel + 1, cs => do
    let '"' :: rest := skipSpace cs | none
    let (name, rest) ← string? rest
    let ':' :: rest := skipSpace rest | none
    let (j, rest) ← value? fuel rest
    match skipSpace rest with
    | ',' :: rest => (fields? fuel rest).map fun (fs, rest) => ((name, j) :: fs, rest)
    | '}' :: rest => some ([(name, j)], rest)
    | _ => none

end

/-- The document that a text spells. Every character takes two calls at most. -/
def parse? (text : String) : Option Json :=
  match value? (2 * text.toList.length + 2) text.toList with
  | some (j, rest) => if (skipSpace rest).isEmpty then some j else none
  | none => none

end SqlConsole.Json
