/-
Double-precision numbers, as exact values.

A finite double is a sign, a mantissa and a power of two; nothing here computes with machine numbers. `Double.ofRatio`
rounds a quotient of naturals to the nearest double, a half to the even mantissa, and overflows to infinity;
`Double.ofDecimal` does the same for digits and a power of ten. Mantissas are kept full: 2^52 ≤ m < 2^53, or m < 2^52
at the smallest exponent.
-/
namespace EntitySearch

/-- `n` moved `k` places up in a base; unchanged when `k` is negative -/
def Number.shifted (base : Nat) (k : Int) (n : Nat) : Nat := n * Nat.pow base k.toNat

/-- a double; `finite n m e` is m · 2^e, negative when `n` -/
inductive Double where
  | nan
  | infinite (negative : Bool)
  | finite (negative : Bool) (mantissa : Nat) (exponent : Int)
  deriving DecidableEq, Repr

namespace Double

open Number (shifted)

/-- the least full mantissa -/
def leastFull : Nat := shifted 2 52 1

/-- the smallest exponent of a finite double -/
def leastExponent : Int := -1074

/-- the largest exponent of a finite double -/
def greatestExponent : Int := 971

/-- a quotient rounded to the nearest natural, a half to the even one -/
def roundHalfEven (num den : Nat) : Nat :=
  let q := num / den
  let r := num % den
  if 2 * r < den then q
  else if den < 2 * r then q + 1
  else if q % 2 == 0 then q else q + 1

/-- the floor of the binary logarithm of num / den, both positive -/
def ratioLog (num den : Nat) : Int :=
  let k : Int := num.log2 - den.log2
  if shifted 2 k den ≤ shifted 2 (-k) num then k else k - 1

/-- the double nearest to num / den; `den` is positive -/
def ofRatio (negative : Bool) (num den : Nat) : Double :=
  if num = 0 then .finite negative 0 leastExponent
  else
    let e := max (ratioLog num den - 52) leastExponent
    let m := roundHalfEven (shifted 2 (-e) num) (shifted 2 e den)
    let (m, e) := if m = 2 * leastFull then (leastFull, e + 1) else (m, e)
    if greatestExponent < e then .infinite negative else .finite negative m e

/-- the number of decimal digits of a natural, none for zero -/
def digitCount (n : Nat) : Nat :=
  if h : n = 0 then 0 else digitCount (n / 10) + 1
termination_by n
decreasing_by omega

/-- the double nearest to digits · 10^exp; far outside the range of doubles the answer is zero or infinity at once -/
def ofDecimal (negative : Bool) (digits : Nat) (exp : Int) : Double :=
  let top := digitCount digits + exp
  if digits = 0 || top < -400 then .finite negative 0 leastExponent
  else if 400 < top then .infinite negative
  else ofRatio negative (shifted 10 exp digits) (shifted 10 (-exp) 1)

/-- the double nearest to an integer -/
def ofInt (n : Int) : Double := ofDecimal (n < 0) n.natAbs 0

/-- neither infinite nor undefined -/
def isFinite : Double → Bool
  | .finite .. => true
  | _ => false

/-- the positive or the negative zero -/
def isZero : Double → Bool
  | .finite _ m _ => m == 0
  | _ => false

end Double

end EntitySearch
