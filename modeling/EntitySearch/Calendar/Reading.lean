/-
Reading dates.

A date is a year, a month and a day with hyphens between them. Blanks may stand before each number. A year without a
sign has up to four digits, a signed one any number of digits; month and day have one or two. Month and day are held
to 1–12 and 1–31 as they are read, the whole date to the calendar at the end. `readStrict` takes nothing else;
`readLoose` also allows blanks behind each number.
-/
import EntitySearch.Calendar.Date
import EntitySearch.Number.Reading

namespace EntitySearch.Calendar

/-- why a text is no date -/
inductive DateError where
  | outOfRange
  | invalid
  | tooShort
  | tooLong
  deriving DecidableEq, Repr

def DateError.message : DateError → String
  | .outOfRange => "input is out of range"
  | .invalid => "input contains invalid characters"
  | .tooShort => "premature end of input"
  | .tooLong => "trailing input"

/-- up to `width` digits behind those worth `acc`, with what follows them -/
def someDigits (acc : Nat) : (width : Nat) → List Char → Nat × List Char
  | 0, s => (acc, s)
  | _ + 1, [] => (acc, [])
  | width + 1, c :: rest =>
    match Number.digit? c with
    | some d => someDigits (acc * 10 + d) width rest
    | none => (acc, c :: rest)

/-- one to `width` digits -/
def number (width : Nat) : List Char → Except DateError (Nat × List Char)
  | [] => .error .tooShort
  | c :: rest =>
    match Number.digit? c with
    | some _ => .ok (someDigits 0 width (c :: rest))
    | none => .error .invalid

/-- a year: signed with any number of digits, or one to four digits; held to 32 bits -/
def year (s : List Char) : Except DateError (Int × List Char) := do
  let (y, rest) ←
    match Text.trimFront s with
    | '-' :: rest => (number rest.length rest).map fun (n, r) => (-(n : Int), r)
    | '+' :: rest => (number rest.length rest).map fun (n, r) => ((n : Int), r)
    | rest => (number 4 rest).map fun (n, r) => ((n : Int), r)
  if -2147483648 ≤ y && y ≤ 2147483647 then .ok (y, rest) else .error .outOfRange

/-- a month or a day: one or two digits, from 1 to `most` -/
def part (most : Nat) (s : List Char) : Except DateError (Nat × List Char) := do
  let (n, rest) ← number 2 (Text.trimFront s)
  if 1 ≤ n && n ≤ most then .ok (n, rest) else .error .outOfRange

/-- the hyphen between two numbers -/
def hyphen : List Char → Except DateError (List Char)
  | [] => .error .tooShort
  | '-' :: rest => .ok rest
  | _ :: _ => .error .invalid

/-- a date; `gap` takes away what may stand behind a number -/
def readWith (gap : List Char → List Char) (s : List Char) : Except DateError Date := do
  let (y, s) ← year s
  let s ← hyphen (gap s)
  let (m, s) ← part 12 s
  let s ← hyphen (gap s)
  let (d, s) ← part 31 s
  if gap s = [] then
    match Date.of? y m d with
    | some date => .ok date
    | none => .error .outOfRange
  else .error .tooLong

/-- a date with nothing behind its numbers -/
def readStrict (s : List Char) : Except DateError Date := readWith id s

/-- a date with blanks allowed behind its numbers -/
def readLoose (s : List Char) : Except DateError Date := readWith Text.trimFront s

end EntitySearch.Calendar
