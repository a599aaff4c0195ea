import EntitySearch.Backend.JsonQuery
import EntitySearch.Backend.Request
import EntitySearch.Backend.Trace
import EntitySearch.Backend.Wildcard
import EntitySearch.Calendar.Date
import EntitySearch.Calendar.Reading
import EntitySearch.Catalog.Basic
import EntitySearch.Catalog.Declaration
import EntitySearch.Catalog.Reading
import EntitySearch.Catalog.Value
import EntitySearch.CommandLine.Arguments
import EntitySearch.CommandLine.Parameters
import EntitySearch.CommandLine.Run
import EntitySearch.Config
import EntitySearch.Engine
import EntitySearch.Error
import EntitySearch.Json.Reader
import EntitySearch.Json.Value
import EntitySearch.Json.Writer
import EntitySearch.Main
import EntitySearch.Markup.Cursor
import EntitySearch.Markup.Node
import EntitySearch.Markup.Progress
import EntitySearch.Markup.Scalar.Block
import EntitySearch.Markup.Scalar.Plain
import EntitySearch.Markup.Scalar.Quoted
import EntitySearch.Markup.Signs
import EntitySearch.Markup.Tag
import EntitySearch.Markup.Token
import EntitySearch.Markup.Tree
import EntitySearch.Number.Coarse
import EntitySearch.Number.Double
import EntitySearch.Number.Layout
import EntitySearch.Number.Reading
import EntitySearch.Number.Shortest
import EntitySearch.Predicate.Aggregation
import EntitySearch.Predicate.Builder
import EntitySearch.Predicate.Draft
import EntitySearch.Predicate.Tree
import EntitySearch.Proofs.Aggregates
import EntitySearch.Proofs.Backend.JsonQuery
import EntitySearch.Proofs.Backend.Metrics
import EntitySearch.Proofs.Backend.Scalars
import EntitySearch.Proofs.Backend.Selection
import EntitySearch.Proofs.Backend.Trace
import EntitySearch.Proofs.Backend.Wildcard
import EntitySearch.Proofs.Calendar.Written
import EntitySearch.Proofs.Catalog.Answers
import EntitySearch.Proofs.Catalog.Nesting
import EntitySearch.Proofs.Catalog.Soundness
import EntitySearch.Proofs.Catalog.Value
import EntitySearch.Proofs.CommandLine.Inlining
import EntitySearch.Proofs.CommandLine.Targets
import EntitySearch.Proofs.CommandLine.Threshold
import EntitySearch.Proofs.CommandLine.Uses
import EntitySearch.Proofs.CommandLine.Values
import EntitySearch.Proofs.Engine
import EntitySearch.Proofs.Expansion
import EntitySearch.Proofs.Literals
import EntitySearch.Proofs.Lookup
import EntitySearch.Proofs.Number.Double
import EntitySearch.Proofs.Number.Long
import EntitySearch.Proofs.Offsets
import EntitySearch.Proofs.Outcome
import EntitySearch.Proofs.Parameters
import EntitySearch.Proofs.Predicate.Assembly
import EntitySearch.Proofs.Predicate.Attachment
import EntitySearch.Proofs.Predicate.Building
import EntitySearch.Proofs.Predicate.Meaning
import EntitySearch.Proofs.Predicate.Steps
import EntitySearch.Proofs.Predicate.Whole
import EntitySearch.Proofs.Query.Alone
import EntitySearch.Proofs.Query.Clause
import EntitySearch.Proofs.Query.Condition
import EntitySearch.Proofs.Query.Cut
import EntitySearch.Proofs.Query.CutCondition
import EntitySearch.Proofs.Query.CutOperand
import EntitySearch.Proofs.Query.CutToken
import EntitySearch.Proofs.Query.Depth
import EntitySearch.Proofs.Query.Grammar
import EntitySearch.Proofs.Query.Literal
import EntitySearch.Proofs.Query.Nesting
import EntitySearch.Proofs.Query.Operand
import EntitySearch.Proofs.Query.Path
import EntitySearch.Proofs.Query.Quoted
import EntitySearch.Proofs.Query.Reading
import EntitySearch.Proofs.Query.Scan
import EntitySearch.Proofs.Query.Statement
import EntitySearch.Proofs.Query.Stop
import EntitySearch.Proofs.Query.Suffix
import EntitySearch.Proofs.Query.Taken
import EntitySearch.Proofs.Renaming
import EntitySearch.Proofs.Render.Clause
import EntitySearch.Proofs.Render.Conversion
import EntitySearch.Proofs.Render.Faults
import EntitySearch.Proofs.Render.Leaves
import EntitySearch.Proofs.Render.Meaning
import EntitySearch.Proofs.Render.Outline
import EntitySearch.Proofs.Render.Rebuilding
import EntitySearch.Proofs.Render.Record
import EntitySearch.Proofs.Render.Replay
import EntitySearch.Proofs.Render.Rewriting
import EntitySearch.Proofs.Render.Statement
import EntitySearch.Proofs.Render.Substitution
import EntitySearch.Proofs.Render.Tree
import EntitySearch.Proofs.Render.Values
import EntitySearch.Proofs.Render.Written
import EntitySearch.Proofs.Resolve.Alias
import EntitySearch.Proofs.Resolve.Compared
import EntitySearch.Proofs.Resolve.Misstep
import EntitySearch.Proofs.Resolve.Naming
import EntitySearch.Proofs.Resolve.Refusal
import EntitySearch.Proofs.Resolve.Registry
import EntitySearch.Proofs.Resolve.Renaming
import EntitySearch.Proofs.Resolve.Rooted
import EntitySearch.Proofs.Resolve.Scope
import EntitySearch.Proofs.Resolve.Session
import EntitySearch.Proofs.Resolve.Statement
import EntitySearch.Proofs.Resolve.Traverse
import EntitySearch.Query.Condition
import EntitySearch.Query.Reader.Condition
import EntitySearch.Query.Reader.Operand
import EntitySearch.Query.Reader.Statement
import EntitySearch.Query.Scan
import EntitySearch.Query.Statement
import EntitySearch.Render.Condition
import EntitySearch.Render.Result
import EntitySearch.Render.Statement
import EntitySearch.Resolve.Alias
import EntitySearch.Resolve.Path
import EntitySearch.Resolve.Resolved
import EntitySearch.Resolve.Scope
import EntitySearch.Resolve.Statement
import EntitySearch.Text.Alphabet
import EntitySearch.Text.Basic
