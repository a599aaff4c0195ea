/-
A query after its names are resolved: every reference is a checked path, every named parameter carries its value.
-/
import EntitySearch.Query.Condition
import EntitySearch.Resolve.Scope

namespace EntitySearch

/-- the values of the named parameters -/
abbrev Parameters := List (String × Value)

/-- an aggregate of a resolved path -/
structure AggregatePath where
  function : Aggregation
  path : Path
  deriving DecidableEq, Repr

/-- the aggregate as it is shown -/
def AggregatePath.text (a : AggregatePath) : String := a.function.applied a.path.text

/-- an operand of a resolved condition; a literal keeps its text until its property is known -/
inductive ResolvedOperand where
  | path (path : Path)
  | aggregate (aggregate : AggregatePath)
  | literal (text : String)
  | parameter (name : String) (value : Value)
  deriving DecidableEq

/-- the operand as it is shown in errors -/
def ResolvedOperand.text : ResolvedOperand → String
  | .path p => p.text
  | .aggregate a => a.text
  | .literal s => Text.quoted s
  | .parameter name _ => ":" ++ name

/-- an item of the SELECT list -/
inductive ResolvedItem where
  | path (path : Path)
  | aggregate (aggregate : AggregatePath)
  deriving DecidableEq, Repr

/-- an item of the ORDER BY list -/
structure ResolvedOrder where
  path : Path
  ascending : Bool
  deriving DecidableEq, Repr

/-- a resolved query -/
structure ResolvedStatement where
  target : Target
  distinct : Bool
  items : List ResolvedItem
  filter : Option (Condition ResolvedOperand)
  groupBy : List Path
  having : Option (Condition ResolvedOperand)
  orderBy : List ResolvedOrder
  aliases : AliasTable

end EntitySearch
