/-
What a compiled query gives: the query of the search store, and what a caller needs to run it and to shape the answer.
-/
import EntitySearch.Predicate.Aggregation

namespace EntitySearch

/-- an item of what is asked for -/
inductive Projection where
  | entity
  | property (name : String)
  | aggregate (function : Aggregation) (property : String)
  deriving DecidableEq, Repr

/-- a property to sort by -/
structure SortField where
  property : String
  ascending : Bool
  deriving DecidableEq, Repr

/-- a compiled query; properties are dotted paths below the target entity -/
structure QueryResult (Q : Type) where
  query : Q
  entity : String
  calledBy : String
  projections : List Projection
  sort : List SortField
  groupBy : List String
  having : Option Q
  distinct : Bool

/-- nothing but whole entities is asked for -/
def QueryResult.selectsEntities {Q : Type} (r : QueryResult Q) : Bool := r.projections.all (· == .entity)

end EntitySearch
