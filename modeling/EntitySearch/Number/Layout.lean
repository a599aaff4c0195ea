/-
How numbers are written out.

A double has its fewest digits; a layout says where the point goes. `plain` never uses an exponent and writes whole
numbers without a point. `exact` always shows that the number is a double: with a point from 10^-5 up to 10^16, with
an exponent outside.
-/
import EntitySearch.Number.Shortest

namespace EntitySearch.Number

/-- `n` zeros -/
def zeros (n : Nat) : String := "".pushn '0' n

/-- the digits of a natural with the point `places` digits from the right, a zero before a leading point -/
def withPoint (digits : String) (places : Nat) : String :=
  if digits.length ≤ places then "0." ++ zeros (places - digits.length) ++ digits
  else
    let whole := digits.toList.take (digits.length - places)
    let part := digits.toList.drop (digits.length - places)
    String.ofList whole ++ "." ++ String.ofList part

/-- digits · 10^exp without an exponent; `whole` is put behind a number without a fraction -/
def positional (d : Decimal) (whole : String) : String :=
  let digits := toString d.digits
  if 0 ≤ d.exp then digits ++ zeros d.exp.toNat ++ whole
  else withPoint digits (-d.exp).toNat

/-- digits · 10^exp with one digit before the point and a signed exponent -/
def scientific (d : Decimal) : String :=
  let digits := toString d.digits
  let power := d.exp + (digits.length : Int) - 1
  let front := if digits.length ≤ 1 then digits else withPoint digits (digits.length - 1)
  front ++ "e" ++ (if power < 0 then "-" else "+") ++ toString power.natAbs

/-- the sign before a negative number -/
def minus (negative : Bool) : String := if negative then "-" else ""

/-- a double as running text -/
def plain : Double → String
  | .nan => "NaN"
  | .infinite negative => minus negative ++ "inf"
  | .finite negative m e =>
    minus negative ++ (if m = 0 then "0" else positional (shortest .up m e) "")

/-- a finite double as a number that cannot be taken for an integer -/
def exact (negative : Bool) (m : Nat) (e : Int) : String :=
  if m = 0 then minus negative ++ "0.0"
  else
    let d := shortest .even m e
    let place := d.exp + ((toString d.digits).length : Int)
    minus negative ++ (if -5 < place && place ≤ 16 then positional d ".0" else scientific d)

/-- a natural in at least `width` digits -/
def padded (width n : Nat) : String :=
  let digits := toString n
  zeros (width - digits.length) ++ digits

/-- two lower-case hexadecimal digits -/
def hexByte (n : Nat) : String :=
  String.ofList [Nat.digitChar (n / 16 % 16), Nat.digitChar (n % 16)]

end EntitySearch.Number
