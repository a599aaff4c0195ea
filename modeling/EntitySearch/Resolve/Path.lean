/-
Property paths: steps from an object through embedded objects to a property.

A path starts at an alias or at the properties of the target entity. Each step into an embedded object carries the
type reached; a step to a scalar has none, and nothing can follow it.
-/
import EntitySearch.Catalog.Basic

namespace EntitySearch

/-- a step to a property; `type` is that of the embedded object reached, if it is one -/
structure Step where
  name : String
  type : Option ObjectType
  deriving DecidableEq, Repr

/-- a path from `root`, which is what the alias `start` stands for if there is one -/
structure Path where
  root : ObjectType
  start : Option String
  steps : List Step
  deriving DecidableEq, Repr

namespace Path

/-- the start of a path over the properties of a type -/
def bare (root : ObjectType) : Path := ⟨root, none, []⟩

/-- an alias alone -/
def ofAlias (name : String) (type : ObjectType) : Path := ⟨type, some name, []⟩

/-- one step more -/
def push (p : Path) (step : Step) : Path := { p with steps := p.steps ++ [step] }

/-- the names of the steps -/
def properties (p : Path) : List String := p.steps.map (·.name)

/-- the alias, if there is one, and the names of the steps -/
def names (p : Path) : List String := p.start.toList ++ p.properties

/-- the names joined by full stops -/
def text (p : Path) : String := Text.dotted p.names

/-- the type from which the next step would start; none behind a scalar -/
def terminal (p : Path) : Option ObjectType :=
  match p.steps.getLast? with
  | some step => step.type
  | none => some p.root

/-- an alias and nothing behind it -/
def isBareAlias (p : Path) : Bool := p.start.isSome && p.steps.isEmpty

/-- the last step leads into an embedded object -/
def endsInObject (p : Path) : Bool := p.steps.getLast?.any fun step => step.type.isSome

/-- neither an alias nor a step -/
def isEmpty (p : Path) : Bool := p.start.isNone && p.steps.isEmpty

end Path

end EntitySearch
