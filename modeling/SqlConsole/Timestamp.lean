import SqlConsole.Number.Decimal
import SqlConsole.Text.Blank

/-!
# Timestamps

A civil date and time of the proleptic Gregorian calendar, to the second. `text` writes it as
`YYYY-MM-DD HH:MM:SS`; a year that does not fit four digits carries its sign. `read?` takes more
than that: white space in front of the numbers, numbers that are not filled up with zeros, and a
sign in front of any year. `parse?` accepts exactly what `text` writes, since it compares the two.
-/

namespace SqlConsole

namespace Timestamp

def isLeapYear (year : Int) : Bool := year % 4 == 0 && (year % 100 != 0 || year % 400 == 0)

def daysInMonth (year : Int) (month : Nat) : Nat :=
  if month = 2 then if isLeapYear year then 29 else 28
  else if month = 4 ∨ month = 6 ∨ month = 9 ∨ month = 11 then 30
  else 31

/-- Whether these fields are a date and time. Every minute may have a leap second. -/
def Valid (year : Int) (month day hour minute second : Nat) : Prop :=
  (-262143 ≤ year ∧ year ≤ 262142) ∧ (1 ≤ month ∧ month ≤ 12) ∧
    (1 ≤ day ∧ day ≤ daysInMonth year month) ∧ hour < 24 ∧ minute < 60 ∧ second ≤ 60

instance (year : Int) (month day hour minute second : Nat) :
    Decidable (Valid year month day hour minute second) := by
  unfold Valid; infer_instance

end Timestamp

/-- A date and time of the proleptic Gregorian calendar. -/
structure Timestamp where
  year : Int
  month : Nat
  day : Nat
  hour : Nat
  minute : Nat
  second : Nat
  valid : Timestamp.Valid year month day hour minute second
  deriving DecidableEq, Repr

namespace Timestamp

/-- Four digits; outside the years 0 to 9999 a sign and at least four digits. -/
def yearText (year : Int) : List Char :=
  if 0 ≤ year ∧ year ≤ 9999 then Decimal.padded 4 year.natAbs
  else (if year < 0 then '-' else '+') :: Decimal.padded 4 year.natAbs

/-- The timestamp as `YYYY-MM-DD HH:MM:SS`. -/
def text (t : Timestamp) : List Char :=
  yearText t.year ++ '-' :: Decimal.padded 2 t.month ++ '-' :: Decimal.padded 2 t.day ++
    ' ' :: Decimal.padded 2 t.hour ++ ':' :: Decimal.padded 2 t.minute ++
    ':' :: Decimal.padded 2 t.second

/-- The number that the digits at the beginning of a text denote, and what follows them. At least
one digit is needed, and no more than `width` of them count. -/
def digits? (width : Nat) (cs : List Char) : Option (Nat × List Char) :=
  let digits := (cs.take width).takeWhile Char.isDigit
  if digits.isEmpty then none else some (Decimal.toNat digits, cs.drop digits.length)

/-- A number of one digit or two, behind any white space, and what follows it. -/
def number? (cs : List Char) : Option (Nat × List Char) := digits? 2 (cs.dropWhile Text.isBlank)

/-- A year behind any white space, and what follows it. It has up to four digits, and any number of
digits behind a sign. -/
def year? (cs : List Char) : Option (Int × List Char) :=
  match cs.dropWhile Text.isBlank with
  | '-' :: rest => (digits? rest.length rest).map fun (n, rest) => (-(n : Int), rest)
  | '+' :: rest => (digits? rest.length rest).map fun (n, rest) => ((n : Int), rest)
  | rest => (digits? 4 rest).map fun (n, rest) => ((n : Int), rest)

/-- What follows a mark, if the text begins with it. -/
def behind? (mark : Char) : List Char → Option (List Char)
  | [] => none
  | c :: cs => if c = mark then some cs else none

/-- The timestamp of these fields, if they are a date and time. -/
def ofFields? (year : Int) (month day hour minute second : Nat) : Option Timestamp :=
  if h : Valid year month day hour minute second then
    some ⟨year, month, day, hour, minute, second, h⟩
  else none

/-- The timestamp that a text spells. Date and time need no white space between them. -/
def read? (cs : List Char) : Option Timestamp := do
  let (year, cs) ← year? cs
  let cs ← behind? '-' cs
  let (month, cs) ← number? cs
  let cs ← behind? '-' cs
  let (day, cs) ← number? cs
  let (hour, cs) ← number? cs
  let cs ← behind? ':' cs
  let (minute, cs) ← number? cs
  let cs ← behind? ':' cs
  let (second, cs) ← number? cs
  if cs.isEmpty then ofFields? year month day hour minute second else none

/-- The timestamp that is written exactly so, if there is one. -/
def parse? (cs : List Char) : Option Timestamp :=
  (read? cs).filter fun t => t.text == cs

/-- A text that is accepted is the one that its timestamp is written as. -/
theorem text_of_parse? {cs : List Char} {t : Timestamp} (h : parse? cs = some t) : t.text = cs := by
  simpa using (Option.filter_eq_some_iff.1 h).2

end Timestamp

end SqlConsole
