/-
Reading JSON text.

Members keep their order; a repeated key keeps its first place and takes its last value. A number is an integer when
it is written with digits alone, is not the negative zero, and fits 64 bits with or without sign; otherwise it is a
double, from as many of its digits as fit 64 bits and by arithmetic on doubles. A number beyond the greatest double is
refused. Each call of `value` takes at least one character, so a bound of one more than the length of the text is
never reached.
-/
import EntitySearch.Json.Value
import EntitySearch.Number.Coarse

namespace EntitySearch.Json

/-- the text without the gaps at its front -/
def skip (s : List Char) : List Char := s.dropWhile Text.isGap

/-- the value of a hexadecimal digit -/
def hexDigit? (c : Char) : Option Nat :=
  if c.isDigit then some (c.toNat - 48)
  else if 'a' ≤ c && c ≤ 'f' then some (c.toNat - 87)
  else if 'A' ≤ c && c ≤ 'F' then some (c.toNat - 55)
  else none

/-- the value of a run of hexadecimal digits -/
def hex? (s : List Char) : Option Nat :=
  s.foldl (fun acc c => acc.bind fun n => (hexDigit? c).map (n * 16 + ·)) (some 0)

/-- the character for a one-letter escape -/
def unescape : Char → Option Char
  | '"' => some '"'
  | '\\' => some '\\'
  | '/' => some '/'
  | 'b' => some (Char.ofNat 8)
  | 'f' => some (Char.ofNat 12)
  | 'n' => some '\n'
  | 'r' => some '\r'
  | 't' => some '\t'
  | _ => none

/-- a code point above the first 65536 from its two halves -/
def joinHalves (high low : Nat) : Nat := 0x10000 + (high - 0xD800) * 0x400 + (low - 0xDC00)

/-- a character in front of a text and what follows the text -/
def before (c : Char) (read : List Char × List Char) : List Char × List Char := (c :: read.1, read.2)

/-- the characters up to the closing quote, and what follows it -/
def quotedText : List Char → Option (List Char × List Char)
  | [] => none
  | '"' :: rest => some ([], rest)
  | '\\' :: 'u' :: a :: b :: c :: d :: rest =>
    (hex? [a, b, c, d]).bind fun n =>
      if 0xD800 ≤ n && n < 0xDC00 then
        match rest with
        | '\\' :: 'u' :: a :: b :: c :: d :: rest =>
          (hex? [a, b, c, d]).bind fun m =>
            if 0xDC00 ≤ m && m < 0xE000 then (quotedText rest).map (before (Char.ofNat (joinHalves n m))) else none
        | _ => none
      else if 0xDC00 ≤ n && n < 0xE000 then none
      else (quotedText rest).map (before (Char.ofNat n))
  | '\\' :: c :: rest => (unescape c).bind fun e => (quotedText rest).map (before e)
  | c :: rest => if c.toNat < 32 then none else (quotedText rest).map (before c)
termination_by s => s.length

/-- a character of a number -/
def inNumber (c : Char) : Bool := c.isDigit || c == '-' || c == '+' || c == '.' || c == 'e' || c == 'E'

/-- the value of digits without point and exponent -/
def wholeNumber (negative : Bool) (digits : List Char) : Option Json :=
  match Number.leading 0 digits with
  | (n, 0) =>
    if !negative then some (.int n)
    else if n == 0 || -n < Number.minLong then some (.double (Double.ofDecimal true n 0))
    else some (.int (-n))
  | (n, left) => (Number.coarse negative n left).map .double

/-- the value of digits before and behind a point, and of what follows them -/
def brokenNumber (negative : Bool) (whole part rest : List Char) : Option Json :=
  let (n, left) := Number.leading 0 whole
  let (n, unread) := Number.leading n part
  (Number.readExponent rest).bind fun e =>
    (Number.coarse negative n (left - (part.length - unread) + e)).map .double

/-- the value of the text of a number; no zero leads other digits, and digits stand on both sides of a point -/
def numberOf (s : List Char) : Option Json :=
  let (negative, s) :=
    match s with
    | '-' :: rest => (true, rest)
    | rest => (false, rest)
  let whole := s.takeWhile Char.isDigit
  if whole.isEmpty || (whole.head? == some '0' && 1 < whole.length) then none
  else
    match s.dropWhile Char.isDigit with
    | [] => wholeNumber negative whole
    | '.' :: rest =>
      let part := rest.takeWhile Char.isDigit
      if part.isEmpty then none else brokenNumber negative whole part (rest.dropWhile Char.isDigit)
    | rest => brokenNumber negative whole [] rest

/-- `word` and then `v` -/
def literal (word : String) (v : Json) (s : List Char) : Option (Json × List Char) :=
  if s.take word.length == word.toList then some (v, s.drop word.length) else none

mutual

/-- a value at the front of the text, and what follows it -/
def value : (bound : Nat) → List Char → Option (Json × List Char)
  | 0, _ => none
  | bound + 1, s =>
    match skip s with
    | '[' :: rest =>
      match skip rest with
      | ']' :: rest => some (.list [], rest)
      | rest => (items bound rest).map fun (vs, r) => (.list vs, r)
    | '\x7b' :: rest =>
      match skip rest with
      | '\x7d' :: rest => some (.object [], rest)
      | rest => (members bound [] rest).map fun (ms, r) => (.object ms, r)
    | '"' :: rest =>
      (quotedText rest).map fun (t, r) => (.text (String.ofList t), r)
    | 't' :: rest => literal "true" (.bool true) ('t' :: rest)
    | 'f' :: rest => literal "false" (.bool false) ('f' :: rest)
    | 'n' :: rest => literal "null" .null ('n' :: rest)
    | rest => (numberOf (rest.takeWhile inNumber)).map fun v => (v, rest.dropWhile inNumber)

/-- the items of a list up to its closing bracket -/
def items : (bound : Nat) → List Char → Option (List Json × List Char)
  | 0, _ => none
  | bound + 1, s =>
    (value bound s).bind fun (v, rest) =>
      match skip rest with
      | ',' :: rest => (items bound rest).map fun (vs, r) => (v :: vs, r)
      | ']' :: rest => some ([v], rest)
      | _ => none

/-- the members of an object up to its closing brace, put behind those in `seen` -/
def members : (bound : Nat) → List (String × Json) → List Char → Option (List (String × Json) × List Char)
  | 0, _, _ => none
  | bound + 1, seen, s =>
    match skip s with
    | '"' :: rest =>
      (quotedText rest).bind fun (key, rest) =>
        match skip rest with
        | ':' :: rest =>
          (value bound rest).bind fun (v, rest) =>
            let seen := put (String.ofList key) v seen
            match skip rest with
            | ',' :: rest => members bound seen rest
            | '\x7d' :: rest => some (seen, rest)
            | _ => none
        | _ => none
    | _ => none

end

/-- the value of a whole text -/
def parse (text : String) : Option Json :=
  let s := text.toList
  (value (s.length + 1) s).bind fun (v, rest) => if skip rest = [] then some v else none

end EntitySearch.Json
