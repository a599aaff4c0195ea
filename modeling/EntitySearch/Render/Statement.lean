/-
A resolved query turned into what a search store is asked.

Projections come first, then WHERE, HAVING, the sort order and the grouping; the first fault in that order is
reported.
-/
import EntitySearch.Render.Condition
import EntitySearch.Render.Result

namespace EntitySearch

namespace Render

/-- the dotted canonical name of a path -/
def propertyName (t : AliasTable) (path : Path) : Except QueryError String :=
  (t.canonicalNames path).map Text.dotted

/-- the path is the alias of a root entity -/
def isRootAlias (t : AliasTable) (path : Path) : Bool :=
  match path.start, path.steps with
  | some name, [] =>
    match t.get? name with
    | some (.root _) => true
    | _ => false
  | _, _ => false

/-- an item of the SELECT list -/
def projection (t : AliasTable) : ResolvedItem → Except QueryError Projection
  | .path p => if isRootAlias t p then .ok .entity else (propertyName t p).map .property
  | .aggregate a => (propertyName t a.path).map (.aggregate a.function)

end Render

/-- the compiled query -/
def ResolvedStatement.render {Q : Type} (c : Catalog) (f : Factory Q) (s : ResolvedStatement) :
    Except QueryError (QueryResult Q) := do
  let site : Site Q := ⟨c, s.target.entity, f⟩
  let projections ← s.items.mapM (Render.projection s.aliases)
  let query ← Render.query site (ResolvedOperand.propertySubject s.aliases) s.filter
  let having ←
    match s.having with
    | none => .ok none
    | some h => (Render.query site (ResolvedOperand.aggregateSubject s.aliases) (some h)).map some
  let sort ← s.orderBy.mapM fun item =>
    (Render.propertyName s.aliases item.path).map fun name => (⟨name, item.ascending⟩ : SortField)
  let groupBy ← s.groupBy.mapM (Render.propertyName s.aliases)
  .ok ⟨query, s.target.entity, s.target.calledBy, projections, sort, groupBy, having, s.distinct⟩

end EntitySearch
