/-
Doubles from digits and a power of ten, by arithmetic on doubles.

The digits are rounded to a double, and its product or quotient with a power of ten is rounded once more, so the
result may be a neighbour of the nearest double. Powers beyond the greatest double are taken in steps. `leading` keeps
those digits of a long run that fit 64 bits.
-/
import EntitySearch.Number.Reading

namespace EntitySearch.Number

/-- the greatest power of ten that is a finite double -/
def greatestPower : Nat := 308

/-- a double times the power of ten, rounded -/
def timesPower (x : Double) (k : Nat) : Double :=
  match x, Double.ofDecimal false 1 k with
  | .finite negative a i, .finite _ b j => .ofRatio negative (shifted 2 (i + j) (a * b)) (shifted 2 (-(i + j)) 1)
  | x, _ => x

/-- a double divided by the power of ten, rounded -/
def overPower (x : Double) (k : Nat) : Double :=
  match x, Double.ofDecimal false 1 k with
  | .finite negative a i, .finite _ b j => .ofRatio negative (shifted 2 (i - j) a) (shifted 2 (j - i) b)
  | x, _ => x

/-- a double divided by the power of ten, in steps of the greatest power; zero stays as it is -/
def overSteps (x : Double) (k : Nat) : Double :=
  if k ≤ greatestPower then overPower x k
  else if x.isZero then x
  else overSteps (overPower x greatestPower) (k - greatestPower)
termination_by k
decreasing_by simp [greatestPower] at *; omega

/-- digits · 10^exp; nothing if that is beyond the greatest double -/
def coarse (negative : Bool) (digits : Nat) (exp : Int) : Option Double :=
  let x := Double.ofDecimal negative digits 0
  if exp < 0 then some (overSteps x exp.natAbs)
  else if exp ≤ greatestPower then some (timesPower x exp.toNat) |>.filter Double.isFinite
  else if x.isZero then some x
  else none

/-- the digits read behind those worth `acc` for as long as 64 bits hold them, and the number of digits left -/
def leading (acc : Nat) : List Char → Nat × Nat
  | [] => (acc, 0)
  | c :: rest =>
    match digit? c with
    | none => (acc, rest.length + 1)
    | some d => if maxCount < acc * 10 + d then (acc, rest.length + 1) else leading (acc * 10 + d) rest

end EntitySearch.Number
