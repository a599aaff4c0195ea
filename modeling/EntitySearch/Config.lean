/-
The limits and switches of the engine, and where they come from: a text of markup or environment variables.
-/
import EntitySearch.Catalog.Reading

namespace EntitySearch

/-- limits and switches -/
structure Config where
  /-- the greatest length of a query text, in bytes -/
  maxQueryLength : Nat
  /-- the deepest nesting of AND, OR and NOT -/
  maxExpressionDepth : Nat
  /-- every query text is logged -/
  logQueries : Bool
  deriving DecidableEq, Repr

namespace Config

def standard : Config := ⟨65536, 64, false⟩

/-- a setting -/
inductive Setting where
  | maxQueryLength
  | maxExpressionDepth
  | logQueries
  deriving DecidableEq, Repr

/-- the name of a setting in markup -/
def Setting.field : Setting → String
  | .maxQueryLength => "max_query_length"
  | .maxExpressionDepth => "max_expression_depth"
  | .logQueries => "log_queries"

/-- the environment variable of a setting -/
def Setting.variableName : Setting → String
  | .maxQueryLength => "ENTITYQL_MAX_QUERY_LENGTH"
  | .maxExpressionDepth => "ENTITYQL_MAX_EXPRESSION_DEPTH"
  | .logQueries => "ENTITYQL_LOG_QUERIES"

/-- what is wrong with a setting that is out of its range -/
def Setting.rangeMessage : Setting → String
  | .maxQueryLength => "Max query length must be between 1 and 1048576"
  | .maxExpressionDepth => "Max expression depth must be between 1 and 64"
  | .logQueries => ""

/-- why there is no configuration -/
inductive Error where
  | unreadable (cause : String)
  | malformed
  | variable (setting : Setting) (value cause : String)
  | outOfRange (settings : List Setting)
  deriving DecidableEq, Repr

/-- the settings that are out of their ranges -/
def outOfRange (c : Config) : List Setting :=
  (if 1 ≤ c.maxQueryLength && c.maxQueryLength ≤ 1048576 then [] else [.maxQueryLength])
    ++ (if 1 ≤ c.maxExpressionDepth && c.maxExpressionDepth ≤ 64 then [] else [.maxExpressionDepth])

/-- the configuration, if every setting is in its range -/
def validated (c : Config) : Except Error Config :=
  if c.outOfRange.isEmpty then .ok c else .error (.outOfRange c.outOfRange)

/-- the configuration in a tree of markup; what is left out is standard -/
def ofNode (how : Reading) (n : Node) : Option Config :=
  (n.asRecord how ["max_query_length", "max_expression_depth", "log_queries"]).bind fun fields =>
    match fields with
    | [length, depth, log] =>
      (match length with | none => some standard.maxQueryLength | some n => n.asCount how).bind fun length =>
        (match depth with | none => some standard.maxExpressionDepth | some n => n.asCount how).bind fun depth =>
          (match log with | none => some standard.logQueries | some n => n.asBool how).map fun log =>
            ⟨length, depth, log⟩
    | _ => none

/-- the configuration in a text of markup -/
def ofText (text : String) : Except Error Config :=
  match (Markup.parse text).bind fun d => ofNode d.reading d.root with
  | some c => c.validated
  | none => .error .malformed

/-- the environment variables that are set -/
abbrev Environment := List (String × String)

/-- a count from its variable, if that is set -/
def countFrom (env : Environment) (setting : Setting) (standard : Nat) : Except Error Nat :=
  match env.lookup setting.variableName with
  | none => .ok standard
  | some value =>
    match Number.readCount Number.maxCount value.toList with
    | .ok n => .ok n
    | .error e => .error (.variable setting value e.message)

/-- a switch from its variable, if that is set -/
def switchFrom (env : Environment) (setting : Setting) (standard : Bool) : Except Error Bool :=
  match env.lookup setting.variableName with
  | none => .ok standard
  | some value =>
    if value == "true" then .ok true
    else if value == "false" then .ok false
    else .error (.variable setting value "provided string was not \x60true\x60 or \x60false\x60")

/-- the configuration from environment variables -/
def ofEnvironment (env : Environment) : Except Error Config := do
  let length ← countFrom env .maxQueryLength standard.maxQueryLength
  let depth ← countFrom env .maxExpressionDepth standard.maxExpressionDepth
  let log ← switchFrom env .logQueries standard.logQueries
  validated ⟨length, depth, log⟩

/-- the text of a failure and of what caused it, the outermost first -/
def Error.chain : Error → List String
  | .unreadable cause => [s!"Parse error for yaml_file: file read failed - {cause}", cause]
  | .malformed => ["Parse error for yaml_content"]
  | .variable setting value cause => [s!"Parse error for {setting.variableName}: {value} - {cause}", cause]
  | .outOfRange settings =>
    let text := "\n".intercalate (settings.map fun s => s.field ++ ": " ++ s.rangeMessage)
    ["Validation error: " ++ text, text]

end Config

end EntitySearch
