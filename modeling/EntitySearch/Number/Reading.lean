/-
Reading numbers.

Integers are an optional sign and decimal digits, within 64 bits. Doubles are an optional sign and digits with an
optional point and an optional exponent, or one of the words inf, infinity and nan in any case. Nothing may stand
before or behind.
-/
import EntitySearch.Number.Double
import EntitySearch.Text.Basic

namespace EntitySearch.Number

/-- the least 64-bit integer -/
def minLong : Int := -9223372036854775808

/-- the greatest 64-bit integer -/
def maxLong : Int := 9223372036854775807

/-- the greatest 64-bit natural -/
def maxCount : Nat := 18446744073709551615

/-- the value of a decimal digit -/
def digit? (c : Char) : Option Nat := if c.isDigit then some (c.toNat - 48) else none

/-- why a text is not a count -/
inductive CountError where
  | empty
  | invalidDigit
  | tooLarge
  deriving DecidableEq, Repr

def CountError.message : CountError → String
  | .empty => "cannot parse integer from empty string"
  | .invalidDigit => "invalid digit found in string"
  | .tooLarge => "number too large to fit in target type"

/-- digits read one by one behind those worth `acc`; the first fault met decides -/
def countFrom (limit acc : Nat) : List Char → Except CountError Nat
  | [] => .ok acc
  | c :: rest =>
    match digit? c with
    | none => .error .invalidDigit
    | some d => if limit < acc * 10 + d then .error .tooLarge else countFrom limit (acc * 10 + d) rest

/-- a natural of at most `limit`, with an optional plus sign -/
def readCount (limit : Nat) : List Char → Except CountError Nat
  | [] => .error .empty
  | ['+'] => .error .invalidDigit
  | '+' :: rest => countFrom limit 0 rest
  | s => countFrom limit 0 s

/-- the value of a run of digits behind those worth `acc`; nothing if another character stands among them -/
def digitsFrom (acc : Nat) : List Char → Option Nat
  | [] => some acc
  | c :: rest => (digit? c).bind fun d => digitsFrom (acc * 10 + d) rest

/-- the value of a non-empty run of digits -/
def digits? : List Char → Option Nat
  | [] => none
  | s => digitsFrom 0 s

/-- a sign and what stands behind it -/
def splitSign : List Char → Bool × List Char
  | '-' :: rest => (true, rest)
  | '+' :: rest => (false, rest)
  | s => (false, s)

/-- a 64-bit integer -/
def readLong (s : List Char) : Option Int :=
  let (negative, rest) := splitSign s
  (digits? rest).bind fun n =>
    let v : Int := if negative then -n else n
    if minLong ≤ v && v ≤ maxLong then some v else none

/-- the exponent part: nothing, or an e with an optional sign and digits -/
def readExponent : List Char → Option Int
  | [] => some 0
  | c :: rest =>
    if c == 'e' || c == 'E' then
      let (negative, rest) := splitSign rest
      (digits? rest).map fun n => if negative then -(n : Int) else n
    else none

/-- the words for values that have no digits -/
def readSpecial (negative : Bool) (s : List Char) : Option Double :=
  let s := Text.lower s
  if s == "inf".toList || s == "infinity".toList then some (.infinite negative)
  else if s == "nan".toList then some .nan
  else none

/-- digits, point, digits and exponent; at least one digit stands around the point -/
def readDigits (negative : Bool) (s : List Char) : Option Double :=
  let whole := s.takeWhile Char.isDigit
  let rest := s.dropWhile Char.isDigit
  let (part, rest) :=
    match rest with
    | '.' :: r => (r.takeWhile Char.isDigit, r.dropWhile Char.isDigit)
    | r => ([], r)
  (digits? (whole ++ part)).bind fun n =>
    (readExponent rest).map fun e => Double.ofDecimal negative n (e - part.length)

/-- a double -/
def readDouble (s : List Char) : Option Double :=
  let (negative, rest) := splitSign s
  (readDigits negative rest).or (readSpecial negative rest)

end EntitySearch.Number
