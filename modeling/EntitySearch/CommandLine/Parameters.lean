/-
The types of parameters given on the command line.

A parameter's text is converted to the kind of the property that the WHERE condition compares it with. The properties
are found in the query as it is written: an alias of an entity stands for nothing, an alias of a join for the path of
the join. Where a parameter is compared more than once, the last comparison in the text counts, since the members of
every AND and OR are looked through from the last to the first.
-/
import EntitySearch.Catalog.Basic
import EntitySearch.Query.Reader.Statement
import EntitySearch.Resolve.Resolved

namespace EntitySearch.CommandLine

/-- names and the property paths they stand for; the first entry for a name counts -/
abbrev NamedPaths := List (String × List String)

/-- the names of a path below the target entity; none if nothing is left of it -/
def belowTarget (roots : List String) (joins : NamedPaths) : List String → Option (List String)
  | [] => none
  | first :: rest =>
    let path :=
      if roots.contains first then rest
      else match joins.lookup first with
        | some join => join ++ rest
        | none => first :: rest
    if path.isEmpty then none else some path

/-- what the join aliases stand for -/
def joinPaths (roots : List String) (joins : List Join) : NamedPaths :=
  joins.foldl (fun found join =>
    match belowTarget roots found join.path.segments with
    | some path => found ++ [(join.name, path)]
    | none => found) []

mutual

/-- the operands that are compared with each other, in the order in which they are looked through -/
def comparisons : Condition Operand → List (Operand × List Operand)
  | .and cs => comparisonsFromLast cs
  | .or cs => comparisonsFromLast cs
  | .not c => comparisons c
  | .compare _ left right => [(left, [right]), (right, [left])]
  | .between operand lower upper _ => [(operand, [lower, upper])]
  | .among operand values _ => [(operand, values)]
  | .like .. => []
  | .isNull .. => []

def comparisonsFromLast : List (Condition Operand) → List (Operand × List Operand)
  | [] => []
  | c :: rest => comparisonsFromLast rest ++ comparisons c

end

/-- the parameters among operands -/
def parameterNames (operands : List Operand) : List String :=
  operands.filterMap fun
    | .named name => some name
    | _ => none

/-- the parameters compared with a property, each with its path -/
def comparedWith (roots : List String) (joins : NamedPaths) : Operand × List Operand → NamedPaths
  | (.path p, others) =>
    match belowTarget roots joins p.segments with
    | some path => (parameterNames others).map fun name => (name, path)
    | none => []
  | _ => []

/-- entries without those whose name came before -/
def firstOnly (entries : NamedPaths) : NamedPaths :=
  entries.foldl (fun found (name, path) => if (found.lookup name).isSome then found else found ++ [(name, path)]) []

/-- the property path that each parameter of a query is typed by -/
def parameterPaths (q : Statement) : NamedPaths :=
  let roots := q.sources.map Source.reference
  let joins := joinPaths roots q.joins
  match q.filter with
  | none => []
  | some c => firstOnly ((comparisons c).flatMap (comparedWith roots joins))

/-- why a parameter has no value -/
inductive ParameterError where
  | malformed (text : String)
  | unfit (name : String) (cause : SchemaError)
  deriving DecidableEq, Repr

/-- the text of a failure and of its cause -/
def ParameterError.chain : ParameterError → List String
  | .malformed text => [s!"invalid parameter '{text}', expected NAME=VALUE"]
  | .unfit name cause => [s!"parameter ':{name}'", cause.text]

/-- the name and the value of a parameter; colons before the name do not count -/
def splitParameter (text : String) : Except ParameterError (String × String) :=
  match Text.splitFirst '=' text.toList with
  | none => .error (.malformed text)
  | some (name, value) =>
    let name := (Text.trimBack (Text.trimFront name)).dropWhile (· == ':')
    if name.isEmpty then .error (.malformed text) else .ok (String.ofList name, String.ofList value)

/-- a parameter's value, typed by the property it is compared with if that is known -/
def typedValue (c : Catalog) (entity : Option String) (targets : NamedPaths) (name value : String) :
    Except ParameterError Value :=
  match entity, targets.lookup name with
  | some entity, some path =>
    if c.hasProperty entity path then
      match c.convert entity path value with
      | .ok v => .ok v
      | .error e => .error (.unfit name e)
    else .ok (.string value)
  | _, _ => .ok (.string value)

/-- the parameters with one of them set; a later value replaces an earlier one -/
def setParameter (name : String) (value : Value) : Parameters → Parameters
  | [] => [(name, value)]
  | (n, v) :: rest => if n == name then (n, value) :: rest else (n, v) :: setParameter name value rest

/-- the values of the parameters given for a query text -/
def parameterValues (c : Catalog) (query : String) (params : List String) : Except ParameterError Parameters :=
  let statement := (Query.parse query).toOption
  let entity := (statement.bind fun q => q.sources.head?).bind fun source => c.resolve source.entity
  let targets := (statement.map parameterPaths).getD []
  params.foldlM (fun found text => do
    let (name, value) ← splitParameter text
    let v ← typedValue c entity targets name value
    .ok (setParameter name v found)) []

end EntitySearch.CommandLine
