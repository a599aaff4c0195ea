/-
Days of the proleptic Gregorian calendar, from the first day of the year -262143 to the last of the year 262142.

A date carries the proof that its day exists. It is written year-month-day with two digits for month and day; years 0
to 9999 have four digits, others a sign and at least four.
-/
import EntitySearch.Number.Layout

namespace EntitySearch.Calendar

/-- the first year that has dates -/
def minYear : Int := -262143

/-- the last year that has dates -/
def maxYear : Int := 262142

/-- every fourth year has a leap day, except whole centuries not divisible by 400 -/
def isLeap (year : Int) : Bool := year % 4 == 0 && (year % 100 != 0 || year % 400 == 0)

/-- the number of days of a month; no days for a month that does not exist -/
def daysIn (year : Int) (month : Nat) : Nat :=
  match month with
  | 1 | 3 | 5 | 7 | 8 | 10 | 12 => 31
  | 4 | 6 | 9 | 11 => 30
  | 2 => if isLeap year then 29 else 28
  | _ => 0

/-- the day exists -/
def Exists (year : Int) (month day : Nat) : Prop :=
  minYear ≤ year ∧ year ≤ maxYear ∧ 1 ≤ day ∧ day ≤ daysIn year month

instance (year : Int) (month day : Nat) : Decidable (Exists year month day) :=
  inferInstanceAs (Decidable (_ ∧ _ ∧ _ ∧ _))

/-- a day that exists -/
structure Date where
  year : Int
  month : Nat
  day : Nat
  isDay : Exists year month day
  deriving DecidableEq

/-- the day, if it exists -/
def Date.of? (year : Int) (month day : Nat) : Option Date :=
  if h : Exists year month day then some ⟨year, month, day, h⟩ else none

/-- years 0 to 9999 in four digits, others with a sign -/
def yearText (year : Int) : String :=
  if 0 ≤ year && year ≤ 9999 then Number.padded 4 year.toNat
  else (if year < 0 then "-" else "+") ++ Number.padded 4 year.natAbs

/-- year, month and day joined by hyphens -/
def Date.text (d : Date) : String :=
  yearText d.year ++ "-" ++ Number.padded 2 d.month ++ "-" ++ Number.padded 2 d.day

end EntitySearch.Calendar
