/-
Compiling query texts.

A text that is too long is not read; a query nested too deeply is not resolved; then names are resolved and the query
is rendered. What an administrator wants to see of it is the log: the text, if so configured, and a rejection.
-/
import EntitySearch.Config
import EntitySearch.Query.Reader.Statement
import EntitySearch.Render.Statement
import EntitySearch.Resolve.Statement

namespace EntitySearch

/-- a line of the log -/
inductive LogLine where
  | reading (text : String)
  | rejected (error : QueryError)
  deriving DecidableEq, Repr

def LogLine.text : LogLine → String
  | .reading text => "INFO: Parsing query: " ++ text
  | .rejected e => "WARN: Rejected query [" ++ e.code ++ "]: " ++ e.message

namespace Engine

/-- the query that a text is, within the limits -/
def read (config : Config) (text : String) : Except QueryError Statement :=
  let length := Text.byteLength text.toList
  if config.maxQueryLength < length then
    .error (.malformed
      ⟨s!"query is {length} bytes long, the limit is {config.maxQueryLength}", config.maxQueryLength⟩)
  else
    match Query.parse text with
    | .error e => .error (.malformed e)
    | .ok q =>
      if config.maxExpressionDepth < q.depth then
        .error (.malformed
          ⟨s!"boolean nesting depth {q.depth} exceeds the limit of {config.maxExpressionDepth}", 0⟩)
      else .ok q

/-- the compiled query for a text -/
def compile {Q : Type} (config : Config) (c : Catalog) (parameters : Parameters) (f : Factory Q) (text : String) :
    Except QueryError (QueryResult Q) := do
  let q ← read config text
  let resolved ← q.resolve c parameters
  resolved.render c f

/-- what is logged when a text is compiled with an outcome -/
def log {α : Type} (config : Config) (text : String) (outcome : Except QueryError α) : List LogLine :=
  (if config.logQueries then [.reading text] else [])
    ++ (match outcome with
        | .ok _ => []
        | .error e => [.rejected e])

end Engine

end EntitySearch
