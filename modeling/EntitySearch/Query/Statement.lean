/-
A query as it is written.

`SELECT … FROM … WHERE … GROUP BY … HAVING … ORDER BY …`, where only FROM must be there. Names are not resolved yet
and literals keep their text.
-/
import EntitySearch.Query.Condition
import EntitySearch.Text.Basic

namespace EntitySearch

/-- a literal -/
inductive Literal where
  | string (content : String)
  | number (digits : String)
  | bool (value : Bool)
  deriving DecidableEq, Repr

/-- the text that is converted to a property's kind -/
def Literal.text : Literal → String
  | .string content => content
  | .number digits => digits
  | .bool b => if b then "true" else "false"

/-- what stands between the brackets behind a path -/
inductive Index where
  | string (content : String)
  | number (digits : String)
  | named (name : String)
  | positional (number : Option Nat)
  | path (segments : List String)
  deriving DecidableEq, Repr

/-- a dotted reference to a property or an alias, perhaps with an index -/
structure PathExpr where
  segments : List String
  index : Option Index
  deriving DecidableEq, Repr

/-- the names joined by full stops; an index is only hinted at -/
def PathExpr.text (p : PathExpr) : String := Text.dotted p.segments ++ (if p.index.isSome then "[..]" else "")

/-- an aggregate as it is named in a query -/
inductive AggregateName where
  | sum
  | avg
  | min
  | max
  | count
  deriving DecidableEq, Repr

/-- an aggregate of a property -/
structure AggregateExpr where
  function : AggregateName
  distinct : Bool
  path : PathExpr
  deriving DecidableEq, Repr

/-- an operand of a condition -/
inductive Operand where
  | path (path : PathExpr)
  | aggregate (aggregate : AggregateExpr)
  | literal (literal : Literal)
  | named (name : String)
  | positional (number : Option Nat)
  deriving DecidableEq, Repr

/-- an item of the SELECT list -/
inductive SelectItem where
  | path (path : PathExpr)
  | aggregate (aggregate : AggregateExpr)
  deriving DecidableEq, Repr

/-- the SELECT clause -/
structure Select where
  distinct : Bool
  items : List SelectItem
  deriving DecidableEq, Repr

/-- an entity in the FROM clause -/
structure Source where
  entity : String
  name : Option String
  deriving DecidableEq, Repr

/-- the name by which a source is referred to -/
def Source.reference (s : Source) : String := s.name.getD s.entity

/-- a join; whether it is an outer join and whether it fetches does not change what is queried -/
structure Join where
  outer : Bool
  fetch : Bool
  path : PathExpr
  name : String
  deriving DecidableEq, Repr

/-- an item of the ORDER BY list -/
structure OrderItem where
  path : PathExpr
  ascending : Bool
  deriving DecidableEq, Repr

/-- a whole query; `filter` is its WHERE condition -/
structure Statement where
  select : Option Select
  sources : List Source
  joins : List Join
  filter : Option (Condition Operand)
  groupBy : Option (List PathExpr)
  having : Option (Condition Operand)
  orderBy : Option (List OrderItem)
  deriving DecidableEq

/-- the deepest nesting of AND, OR and NOT in the query -/
def Statement.depth (s : Statement) : Nat :=
  max ((s.filter.map Condition.depth).getD 0) ((s.having.map Condition.depth).getD 0)

end EntitySearch
