/-
The functions that a search store computes over the values of a property.
-/
import EntitySearch.Query.Statement

namespace EntitySearch

/-- what is computed over the values of a property -/
inductive Aggregation where
  | sum
  | avg
  | min
  | max
  | count
  | countDistinct
  deriving DecidableEq, Repr

namespace Aggregation

def name : Aggregation → String
  | .sum => "sum"
  | .avg => "avg"
  | .min => "min"
  | .max => "max"
  | .count => "count"
  | .countDistinct => "count_distinct"

def all : List Aggregation := [.sum, .avg, .min, .max, .count, .countDistinct]

def ofName? (name : String) : Option Aggregation := all.find? fun f => f.name == name

/-- the result is a number of values -/
def isCount : Aggregation → Bool
  | .count | .countDistinct => true
  | _ => false

/-- the function for an aggregate as it is written; only a count is affected by DISTINCT -/
def of (function : AggregateName) (distinct : Bool) : Aggregation :=
  match function with
  | .sum => .sum
  | .avg => .avg
  | .min => .min
  | .max => .max
  | .count => if distinct then .countDistinct else .count

/-- the function applied to something, as it is shown -/
def applied (f : Aggregation) (subject : String) : String := f.name ++ "(" ++ subject ++ ")"

end Aggregation

end EntitySearch
