/-
The command: compile a query over the catalog in a file and print the search request.

The configuration comes first, from a file or from environment variables, then the catalog, the parameters and the
query. Files are given as a function, so that a run is a value.
-/
import EntitySearch.Backend.JsonQuery
import EntitySearch.Backend.Request
import EntitySearch.CommandLine.Arguments
import EntitySearch.CommandLine.Parameters
import EntitySearch.Engine
import EntitySearch.Json.Writer

namespace EntitySearch.CommandLine

/-- the content of a file, or why it cannot be read -/
abbrev Files := String → Except String String

/-- the failure of a run: what was being done, then the causes, the outermost first -/
structure Failure where
  causes : List String
  deriving DecidableEq, Repr

def Failure.message (f : Failure) : String := "Error: " ++ ": ".intercalate f.causes

/-- the configuration of a run -/
def loadConfig (files : Files) (env : Config.Environment) (path : Option String) : Except Failure Config :=
  match path with
  | none =>
    match Config.ofEnvironment env with
    | .ok c => .ok c
    | .error e => .error ⟨"reading ENTITYQL_* environment" :: e.chain⟩
  | some path =>
    let loaded := match files path with
      | .ok text => Config.ofText text
      | .error cause => .error (.unreadable cause)
    match loaded with
    | .ok c => .ok c
    | .error e => .error ⟨s!"loading config {path}" :: e.chain⟩

/-- the catalog of a run -/
def loadCatalog (files : Files) (path : String) : Except Failure Catalog :=
  let loaded := match files path with
    | .ok text => Catalog.ofText text
    | .error cause => .error (.unreadable cause)
  match loaded with
  | .ok c => .ok c
  | .error e => .error ⟨[s!"loading schema {path}", e.message]⟩

/-- what a run prints -/
def run (files : Files) (env : Config.Environment) (args : Arguments) : Except Failure String := do
  let config ← loadConfig files env args.config
  let catalog ← loadCatalog files args.schema
  let parameters ←
    match parameterValues catalog args.query args.params with
    | .ok p => .ok p
    | .error e => .error ⟨e.chain⟩
  match Engine.compile config catalog parameters JsonQuery.factory args.query with
  | .error e => .error ⟨[e.message ++ " [" ++ e.code ++ "]"]⟩
  | .ok r => .ok (Json.pretty ((if args.raw then Request.resultJson id else Request.ofResult id) r) ++ "\n")

end EntitySearch.CommandLine
