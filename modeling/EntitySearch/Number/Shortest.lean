/-
The fewest decimal digits that read back to a double.

The reals that round to m · 2^e run from half-way to the value below to half-way to the value above, the ends included
when m is even. On the grids of 1, 2, … 17 significant digits the two neighbours of the value are tested against that
interval in exact arithmetic; the first grid with a hit wins, of two hits the nearer one, and `Tie` says which of two
equally near ones.
-/
import EntitySearch.Number.Double

namespace EntitySearch.Number

/-- which of two equally near digit strings is taken -/
inductive Tie where
  | even
  | up
  deriving DecidableEq, Repr

/-- digits · 10^exp -/
structure Decimal where
  digits : Nat
  exp : Int
  deriving DecidableEq, Repr

/-- the order of a · 10^i and b · 2^j -/
def compareScaled (a : Nat) (i : Int) (b : Nat) (j : Int) : Ordering :=
  compare (shifted 2 (-j) (shifted 10 i a)) (shifted 10 (-i) (shifted 2 j b))

/-- the value below is only half as far away as the value above -/
def narrowBelow (m : Nat) (e : Int) : Bool := m == Double.leastFull && Double.leastExponent < e

/-- the decimal lies among the reals that round to m · 2^e -/
def readsBack (m : Nat) (e : Int) (d : Decimal) : Bool :=
  let low := if narrowBelow m e then 4 * m - 1 else 4 * m - 2
  let atLow := compareScaled d.digits d.exp low (e - 2)
  let atHigh := compareScaled d.digits d.exp (4 * m + 2) (e - 2)
  if m % 2 == 0 then atLow != .lt && atHigh != .gt else atLow == .gt && atHigh == .lt

/-- the least k with m · 2^e < 10^k, looked for from just below the binary logarithm's estimate -/
def pointPlace (m : Nat) (e : Int) : Int :=
  let guess : Int := ((m.log2 + e) * 30103).fdiv 100000
  ((List.range 4).map fun (i : Nat) => guess - 1 + (i : Int)).find? (fun k => compareScaled 1 k m e == .gt)
    |>.getD (guess + 3)

/-- how many times 10^g goes into m · 2^e -/
def floorOn (m : Nat) (e g : Int) : Nat :=
  shifted 10 (-g) (shifted 2 e m) / shifted 10 g (shifted 2 (-e) 1)

/-- the nearest of the two neighbours that reads back, on the grid of multiples of 10^g -/
def nearestOn (tie : Tie) (m : Nat) (e g : Int) : Option Decimal :=
  let below : Decimal := ⟨floorOn m e g, g⟩
  let above : Decimal := ⟨floorOn m e g + 1, g⟩
  match readsBack m e below, readsBack m e above with
  | false, false => none
  | true, false => some below
  | false, true => some above
  | true, true =>
    -- twice the value against the sum of the two neighbours
    match compareScaled (below.digits + above.digits) g m (e + 1) with
    | .gt => some below
    | .lt => some above
    | .eq => some (if tie == .even && below.digits % 2 == 0 then below else above)

/-- trailing zeros moved into the exponent -/
def stripZeros (d : Decimal) : Decimal :=
  if h : d.digits ≠ 0 ∧ d.digits % 10 = 0 then stripZeros ⟨d.digits / 10, d.exp + 1⟩ else d
termination_by d.digits
decreasing_by omega

/-- the fewest digits that read back to m · 2^e, with m positive -/
def shortest (tie : Tie) (m : Nat) (e : Int) : Decimal :=
  let place := pointPlace m e
  ((List.range 17).findSome? fun (n : Nat) => nearestOn tie m e (place - (n + 1 : Nat))).map stripZeros
    |>.getD ⟨shifted 5 (-e) (shifted 2 e m), min e 0⟩

end EntitySearch.Number
