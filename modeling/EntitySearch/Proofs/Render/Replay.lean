/-
A query compiled for one factory is the record of its compilation, replayed.

The factory only ever sees its own calls: which conditions become which tests, and which faults there are, does not
depend on it. So a result for any factory is the result for the recording factory with its queries replayed
(`ResolvedStatement.render_replay`), and what is true of the tests in records is true of what every factory is asked
for.
-/
import EntitySearch.Proofs.Backend.Trace
import EntitySearch.Proofs.Render.Tree
import EntitySearch.Render.Statement

namespace EntitySearch

/-- the result with its queries replaced -/
def QueryResult.map {Q R : Type} (g : Q → R) (r : QueryResult Q) : QueryResult R :=
  { r with query := g r.query, having := r.having.map g }

namespace Render

variable {Q : Type} (c : Catalog) (entity : String) (f : Factory Q)

/-- conversion does not depend on the factory -/
theorem convert_replay : Site.convert ⟨c, entity, f⟩ = Site.convert ⟨c, entity, Trace.factory⟩ := by
  funext s v
  cases v <;> rfl

theorem predicate_replay (a : Atom) : a.predicate ⟨c, entity, f⟩ =
    (a.predicate ⟨c, entity, Trace.factory⟩).map (Trace.replay f) := by
  cases h : a.negated <;> simp [Atom.predicate, h, Predicate.map, Trace.factory, Trace.replay]

theorem atom_replay (x : Except QueryError Atom) :
    (x >>= fun a => .ok (a.predicate ⟨c, entity, f⟩)) =
      (x >>= fun a => .ok (a.predicate ⟨c, entity, Trace.factory⟩)).map (Predicate.map (Trace.replay f)) := by
  cases x with
  | error e => rfl
  | ok a =>
    simp only [ok_bind, predicate_replay c entity f]
    rfl

variable (subject : SubjectOf)

mutual

/-- the tree for a factory is the one of records, replayed -/
theorem tree_replay : ∀ w : Condition ResolvedOperand,
    tree ⟨c, entity, f⟩ subject w = (tree ⟨c, entity, Trace.factory⟩ subject w).map (Predicate.map (Trace.replay f))
  | .and cs => by
    rw [tree, tree, trees_replay cs]
    cases trees ⟨c, entity, Trace.factory⟩ subject cs <;> rfl
  | .or cs => by
    rw [tree, tree, trees_replay cs]
    cases trees ⟨c, entity, Trace.factory⟩ subject cs <;> rfl
  | .not w => by
    rw [tree, tree, tree_replay w]
    cases tree ⟨c, entity, Trace.factory⟩ subject w <;> rfl
  | .compare r left right => by
    rw [tree, tree, convert_replay]
    exact atom_replay c entity f _
  | .between operand lower upper negated => by
    rw [tree, tree, convert_replay]
    exact atom_replay c entity f _
  | .among operand values negated => by
    rw [tree, tree, convert_replay]
    exact atom_replay c entity f _
  | .like operand pattern escape negated => by
    rw [tree, tree]
    exact atom_replay c entity f _
  | .isNull operand negated => by
    rw [tree, tree]
    exact atom_replay c entity f _

theorem trees_replay : ∀ ws : List (Condition ResolvedOperand),
    trees ⟨c, entity, f⟩ subject ws =
      (trees ⟨c, entity, Trace.factory⟩ subject ws).map (Predicate.mapAll (Trace.replay f))
  | [] => rfl
  | w :: rest => by
    rw [trees, trees, tree_replay w, trees_replay rest]
    cases tree ⟨c, entity, Trace.factory⟩ subject w with
    | error e => rfl
    | ok p => cases trees ⟨c, entity, Trace.factory⟩ subject rest <;> rfl

end

theorem query_replay (w : Option (Condition ResolvedOperand)) :
    query ⟨c, entity, f⟩ subject w = (query ⟨c, entity, Trace.factory⟩ subject w).map (Trace.replay f) := by
  cases w with
  | none => rfl
  | some w =>
    rw [query_eq, query_eq, tree_replay]
    cases tree ⟨c, entity, Trace.factory⟩ subject w with
    | error e => rfl
    | ok p =>
      simp only [Except.map, ok_bind, Predicate.render_replay]
      cases p.render Trace.factory entity <;> rfl

end Render

/-- **A result for any factory is the recorded one, replayed.** -/
theorem ResolvedStatement.render_replay {Q : Type} (c : Catalog) (f : Factory Q) (s : ResolvedStatement) :
    s.render c f = (s.render c Trace.factory).map (QueryResult.map (Trace.replay f)) := by
  simp only [ResolvedStatement.render, Render.query_replay c _ f]
  generalize s.orderBy.mapM (m := Except QueryError) (fun item : ResolvedOrder =>
    (Render.propertyName s.aliases item.path).map fun name => (⟨name, item.ascending⟩ : SortField)) = sort
  generalize s.groupBy.mapM (Render.propertyName s.aliases) = groupBy
  cases s.items.mapM (Render.projection s.aliases) with
  | error e => rfl
  | ok projections =>
    cases Render.query ⟨c, s.target.entity, Trace.factory⟩ (ResolvedOperand.propertySubject s.aliases) s.filter with
    | error e => rfl
    | ok query =>
      cases s.having with
      | none =>
        cases sort with
        | error e => rfl
        | ok sort => cases groupBy <;> rfl
      | some h =>
        simp only [Except.map]
        cases Render.query ⟨c, s.target.entity, Trace.factory⟩ (ResolvedOperand.aggregateSubject s.aliases)
          (some h) with
        | error e => rfl
        | ok having =>
          cases sort with
          | error e => rfl
          | ok sort => cases groupBy <;> rfl

end EntitySearch
