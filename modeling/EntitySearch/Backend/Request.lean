/-
Search requests: a compiled query with the fields to return, the sort order, the aggregates and the HAVING test around
it.

A metric is kept under the name of its function and property joined by an underscore; of two with one name the later
one stays, in the place of the earlier. With GROUP BY the metrics stand inside a composite grouping.
-/
import EntitySearch.Json.Value
import EntitySearch.Render.Result

namespace EntitySearch.Request

open Json (one)

/-- the name of a function among the metrics of the store -/
def metricKind : Aggregation → String
  | .sum => "sum"
  | .avg => "avg"
  | .min => "min"
  | .max => "max"
  | .count => "value_count"
  | .countDistinct => "cardinality"

/-- a metric on a property -/
def metric (f : Aggregation) (property : String) : Json := one (metricKind f) (one "field" (.text property))

/-- the name under which a metric is kept -/
def metricKey (f : Aggregation) (property : String) : String := f.name ++ "_" ++ property

/-- the aggregates asked for, in order -/
def aggregates (projections : List Projection) : List (Aggregation × String) :=
  projections.filterMap fun
    | .aggregate f p => some (f, p)
    | _ => none

/-- the metrics for the aggregates asked for -/
def metrics (projections : List Projection) : List (String × Json) :=
  (aggregates projections).foldl (fun found (f, p) => Json.put (metricKey f p) (metric f p) found) []

/-- a property to group by -/
def source (property : String) : Json := one property (one "terms" (one "field" (.text property)))

/-- the aggregations of a request, if there are any -/
def aggregations {Q : Type} (r : QueryResult Q) : Option Json :=
  let found := metrics r.projections
  if r.groupBy.isEmpty then
    if found.isEmpty then none else some (.object found)
  else
    let composite := ("composite", one "sources" (.list (r.groupBy.map source)))
    let inner := if found.isEmpty then [] else [("aggs", .object found)]
    some (one "group_by" (.object (composite :: inner)))

/-- the plain properties asked for, in order -/
def fields (projections : List Projection) : List String :=
  projections.filterMap fun
    | .property p => some p
    | _ => none

/-- a property to sort by -/
def sortEntry (s : SortField) : Json :=
  one s.property (one "order" (.text (if s.ascending then "asc" else "desc")))

/-- the request for a compiled query; `toJson` is the form of a query of the store -/
def ofResult {Q : Type} (toJson : Q → Json) (r : QueryResult Q) : Json :=
  let selected := fields r.projections
  let aggs := match aggregations r with
    | some found => [("size", .int 0), ("aggs", found)]
    | none => []
  let having := match r.having with
    | some q => [("having", toJson q)]
    | none => []
  .object
    ([("query", toJson r.query)]
      ++ (if selected.isEmpty then [] else [("_source", Json.texts selected)])
      ++ (if r.sort.isEmpty then [] else [("sort", .list (r.sort.map sortEntry))])
      ++ aggs ++ having)

/-- an item of what is asked for -/
def projectionJson : Projection → Json
  | .entity => .text "entity"
  | .property p => one "property" (.text p)
  | .aggregate f p => one "aggregate" (.object [("function", .text f.name), ("property", .text p)])

/-- the compiled query itself -/
def resultJson {Q : Type} (toJson : Q → Json) (r : QueryResult Q) : Json :=
  .object [
    ("query", toJson r.query),
    ("target_entity", .text r.entity),
    ("target_entity_name", .text r.calledBy),
    ("projections", .list (r.projections.map projectionJson)),
    ("sort", .list (r.sort.map fun s => .object [("property", .text s.property), ("ascending", .bool s.ascending)])),
    ("group_by", Json.texts r.groupBy),
    ("having", (r.having.map toJson).getD .null),
    ("distinct", .bool r.distinct)]

end EntitySearch.Request
