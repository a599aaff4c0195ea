/-
Queries of a search store that takes JSON: bool queries over term, terms, range, wildcard and exists.

A store has no filter for an aggregate, so a test in HAVING becomes an object that names the function, the property
and the comparison, for a step behind the aggregation.
-/
import EntitySearch.Backend.Wildcard
import EntitySearch.Json.Value
import EntitySearch.Predicate.Tree

namespace EntitySearch.JsonQuery

open Json (one)

/-- none of the queries holds -/
def noneOf (queries : List Json) : Json := one "bool" (one "must_not" (.list queries))

/-- the name of a relation in a range -/
def relationName : Relation → String
  | .equal => "eq"
  | .notEqual => "ne"
  | .less => "lt"
  | .lessOrEqual => "lte"
  | .greater => "gt"
  | .greaterOrEqual => "gte"

/-- the query for a test of a property -/
def test : Test → Json
  | .compare p .equal v => one "term" (one p v.toJson)
  | .compare p .notEqual v => noneOf [one "term" (one p v.toJson)]
  | .compare p r v => one "range" (one p (one (relationName r) v.toJson))
  | .range p lower upper => one "range" (one p (.object [("gte", lower.toJson), ("lte", upper.toJson)]))
  | .among p values => one "terms" (one p (.list (values.map Value.toJson)))
  | .like p pattern escape => one "wildcard" (one p (one "value" (.text (Wildcard.ofLikeText pattern escape))))
  | .isNull p => noneOf [one "exists" (one "field" (.text p))]

/-- a test of an aggregate; `rest` says what it is compared with -/
def having (f : Aggregation) (property op : String) (rest : List (String × Json)) : Json :=
  one "having" (.object ([("function", .text f.name), ("field", .text property), ("op", .text op)] ++ rest))

/-- the object for a test of an aggregate -/
def aggregateTest (f : Aggregation) : Test → Json
  | .compare p r v => having f p (relationName r) [("value", v.toJson)]
  | .range p lower upper => having f p "between" [("lower", lower.toJson), ("upper", upper.toJson)]
  | .among p values => having f p "in" [("values", .list (values.map Value.toJson))]
  | .like p pattern escape => having f p "like" [("pattern", .text (Wildcard.ofLikeText pattern escape))]
  | .isNull p => having f p "is_null" []

/-- a member with a list, left out if the list is empty -/
def unlessEmpty (key : String) (queries : List Json) : List (String × Json) :=
  if queries.isEmpty then [] else [(key, .list queries)]

/-- the factory of JSON queries -/
def factory : Factory Json where
  matchAll _ := one "match_all" (.object [])
  leaf _ aggregation t :=
    match aggregation with
    | none => test t
    | some f => aggregateTest f t
  and must mustNot := one "bool" (.object (unlessEmpty "must" must ++ unlessEmpty "must_not" mustNot))
  or queries := one "bool" (.object [("should", .list queries), ("minimum_should_match", .int 1)])
  not query := noneOf [query]

end EntitySearch.JsonQuery
