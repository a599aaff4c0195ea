/-
The predicate tree that a condition becomes.

`tree` gives it node for node: And, Or and Not stay what they are, and every test becomes one leaf, inside a Not if it
is negated. An `Atom` is such a test with its subject found and its values converted; a comparison with the property on
the right is turned round in it. Nothing in `tree` opens or closes a scope: `condition_adds` says that the scopes which
`condition` opens and closes come to the same, on any draft that has room, and `query_eq` that the query of a condition
is its tree rendered, so that the statements about queries need only speak of trees.
-/
import EntitySearch.Proofs.Predicate.Building
import EntitySearch.Render.Condition

namespace EntitySearch

/-- a test of a subject, or the negation of one -/
structure Atom where
  negated : Bool
  subject : Subject
  test : Test

/-- how a literal or a parameter becomes a value that a subject can be compared with -/
abbrev Conversion := Subject → Comparand → Except QueryError Value

namespace Atom

variable {Q : Type} (convert : Conversion) (subject : Render.SubjectOf)

def compare (r : Relation) (left right : ResolvedOperand) : Except QueryError Atom := do
  let (s, r, value) ← Render.orient subject r left right
  let value ← convert s value
  .ok ⟨false, s, .compare s.property r value⟩

def between (operand lower upper : ResolvedOperand) (negated : Bool) : Except QueryError Atom := do
  let s ← Render.requireSubject subject operand
  let lower ← operand.comparand lower
  let upper ← operand.comparand upper
  let lower ← convert s lower
  let upper ← convert s upper
  .ok ⟨negated, s, .range s.property lower upper⟩

def among (operand : ResolvedOperand) (values : List ResolvedOperand) (negated : Bool) : Except QueryError Atom := do
  let s ← Render.requireSubject subject operand
  let values ← values.mapM operand.comparand
  let values ← values.mapM (convert s)
  .ok ⟨negated, s, .among s.property values⟩

def like (operand pattern : ResolvedOperand) (escape : Option Char) (negated : Bool) : Except QueryError Atom := do
  let s ← Render.requireSubject subject operand
  let pattern ← operand.comparand pattern
  .ok ⟨negated, s, .like s.property pattern.pattern escape⟩

def isNull (operand : ResolvedOperand) (negated : Bool) : Except QueryError Atom := do
  let s ← Render.requireSubject subject operand
  .ok ⟨negated, s, .isNull s.property⟩

/-- the leaf of the test, inside a negation if it is negated -/
def predicate (site : Site Q) (a : Atom) : Predicate Q :=
  let leaf := .leaf a.test a.subject.aggregation (site.factory.leaf site.entity a.subject.aggregation a.test)
  if a.negated then .not (some leaf) else leaf

end Atom

namespace Render

variable {Q : Type}

mutual

/-- the predicate that a condition becomes, or the first fault in it -/
def tree (site : Site Q) (subject : SubjectOf) : Condition ResolvedOperand → Except QueryError (Predicate Q)
  | .and cs => do .ok (.and (← trees site subject cs))
  | .or cs => do .ok (.or (← trees site subject cs))
  | .not c => do .ok (.not (some (← tree site subject c)))
  | .compare r left right => do .ok ((← Atom.compare site.convert subject r left right).predicate site)
  | .between operand lower upper negated => do
    .ok ((← Atom.between site.convert subject operand lower upper negated).predicate site)
  | .among operand values negated => do
    .ok ((← Atom.among site.convert subject operand values negated).predicate site)
  | .like operand pattern escape negated => do
    .ok ((← Atom.like subject operand pattern escape negated).predicate site)
  | .isNull operand negated => do .ok ((← Atom.isNull subject operand negated).predicate site)

/-- the predicates of several conditions -/
def trees (site : Site Q) (subject : SubjectOf) :
    List (Condition ResolvedOperand) → Except QueryError (List (Predicate Q))
  | [] => .ok []
  | c :: rest => do .ok ((← tree site subject c) :: (← trees site subject rest))

end

/-! ## Scopes come to the same -/

open Building

theorem adds_test (site : Site Q) (s : Subject) (t : Test) :
    Adds (site.addTest s t) (.ok (Atom.predicate site ⟨false, s, t⟩)) := adds_place _

/-- an added test is negated by a scope around it as it is by its atom -/
theorem adds_negatedIf (site : Site Q) (s : Subject) (negated : Bool) {m : Building Q Unit} {r : Except QueryError Test}
    (h : Adds m (r >>= fun t => .ok (Atom.predicate site ⟨false, s, t⟩))) :
    Adds (negatedIf negated m) (r >>= fun t => .ok (Atom.predicate site ⟨negated, s, t⟩)) := by
  cases negated with
  | false => exact h
  | true =>
    have inside := adds_not h
    rw [bind_assoc] at inside
    exact inside

theorem adds_compare (site : Site Q) (subject : SubjectOf) (r : Relation) (left right : ResolvedOperand) :
    Adds (condition site subject (.compare r left right)) (tree site subject (.compare r left right)) := by
  simp only [condition, tree, Atom.compare, bind_assoc, ok_bind]
  exact adds_ofExcept fun oriented => adds_ofExcept fun value => adds_test site _ _

theorem adds_between (site : Site Q) (subject : SubjectOf) (operand lower upper : ResolvedOperand) (negated : Bool) :
    Adds (condition site subject (.between operand lower upper negated))
      (tree site subject (.between operand lower upper negated)) := by
  simp only [condition, tree, Atom.between, bind_assoc, ok_bind]
  refine adds_ofExcept fun s => adds_ofExcept fun low => adds_ofExcept fun high => ?_
  have inside : Adds (site.testRange s low high)
      ((site.convert s low >>= fun l => site.convert s high >>= fun h => .ok (Test.range s.property l h)) >>=
        fun t => .ok (Atom.predicate site ⟨false, s, t⟩)) := by
    simp only [bind_assoc, ok_bind]
    exact adds_ofExcept fun l => adds_ofExcept fun h => adds_test site s _
  simpa only [bind_assoc, ok_bind] using adds_negatedIf site s negated inside

theorem adds_among (site : Site Q) (subject : SubjectOf) (operand : ResolvedOperand) (values : List ResolvedOperand)
    (negated : Bool) :
    Adds (condition site subject (.among operand values negated))
      (tree site subject (.among operand values negated)) := by
  simp only [condition, tree, Atom.among, bind_assoc, ok_bind]
  refine adds_ofExcept fun s => adds_ofExcept fun values => ?_
  have inside : Adds (site.testAmong s values)
      ((values.mapM (site.convert s) >>= fun vs => .ok (Test.among s.property vs)) >>=
        fun t => .ok (Atom.predicate site ⟨false, s, t⟩)) := by
    simp only [bind_assoc, ok_bind]
    exact adds_ofExcept fun vs => adds_test site s _
  simpa only [bind_assoc, ok_bind] using adds_negatedIf site s negated inside

theorem adds_like (site : Site Q) (subject : SubjectOf) (operand pattern : ResolvedOperand) (escape : Option Char)
    (negated : Bool) :
    Adds (condition site subject (.like operand pattern escape negated))
      (tree site subject (.like operand pattern escape negated)) := by
  simp only [condition, tree, Atom.like, bind_assoc, ok_bind]
  refine adds_ofExcept fun s => adds_ofExcept fun pattern => ?_
  exact adds_negatedIf site s negated (r := .ok (.like s.property pattern.pattern escape)) (adds_test site s _)

theorem adds_isNull (site : Site Q) (subject : SubjectOf) (operand : ResolvedOperand) (negated : Bool) :
    Adds (condition site subject (.isNull operand negated)) (tree site subject (.isNull operand negated)) := by
  simp only [condition, tree, Atom.isNull, bind_assoc, ok_bind]
  refine adds_ofExcept fun s => ?_
  exact adds_negatedIf site s negated (r := .ok (.isNull s.property)) (adds_test site s _)

mutual

/-- **Scopes come to the same as the tree**: on any draft that has room, adding a condition places its tree, or ends in
the first fault of the tree. -/
theorem condition_adds (site : Site Q) (subject : SubjectOf) :
    ∀ c : Condition ResolvedOperand, Adds (condition site subject c) (tree site subject c)
  | .and cs => by
    simp only [condition, tree]
    exact adds_scope .and (conditions_fills site subject cs)
  | .or cs => by
    simp only [condition, tree]
    exact adds_scope .or (conditions_fills site subject cs)
  | .not c => by
    simp only [condition, tree]
    exact adds_not (condition_adds site subject c)
  | .compare r left right => adds_compare site subject r left right
  | .between operand lower upper negated => adds_between site subject operand lower upper negated
  | .among operand values negated => adds_among site subject operand values negated
  | .like operand pattern escape negated => adds_like site subject operand pattern escape negated
  | .isNull operand negated => adds_isNull site subject operand negated

theorem conditions_fills (site : Site Q) (subject : SubjectOf) :
    ∀ cs : List (Condition ResolvedOperand), Fills (conditions site subject cs) (trees site subject cs)
  | [] => by
    simp only [conditions, trees]
    exact fills_nil
  | c :: rest => by
    simp only [conditions, trees]
    exact fills_cons (condition_adds site subject c) (conditions_fills site subject rest)

end

/-- from the root alone, adding a condition leaves its tree under the root and no scope open -/
theorem condition_initial {site : Site Q} {subject : SubjectOf} {c : Condition ResolvedOperand} {p : Predicate Q}
    (h : tree site subject c = .ok p) :
    (condition site subject c).run.run Draft.initial = (.ok (), ⟨[], .root (some p)⟩) := by
  have run := condition_adds site subject c Draft.initial rfl
  rw [h] at run
  exact run.trans (run_place p Draft.initial)

theorem condition_initial_error {site : Site Q} {subject : SubjectOf} {c : Condition ResolvedOperand} {e : QueryError}
    (h : tree site subject c = .error e) : ((condition site subject c).run.run Draft.initial).1 = .error e := by
  have run := condition_adds site subject c Draft.initial rfl
  rwa [h] at run

/-- a failure of the tree as a failure of the query -/
def structural {α : Type} : Except StructureError α → Except QueryError α
  | .ok a => .ok a
  | .error e => .error (.structural e)

/-- the query of a condition is its tree rendered -/
theorem query_eq (site : Site Q) (subject : SubjectOf) (c : Condition ResolvedOperand) :
    query site subject (some c) =
      tree site subject c >>= fun p => structural (p.render site.factory site.entity) := by
  cases h : tree site subject c with
  | error e =>
    have run := condition_initial_error h
    simp only [query]
    rcases hm : (condition site subject c).run.run Draft.initial with ⟨r, s⟩
    rw [hm] at run
    subst run
    rfl
  | ok p =>
    simp only [query, condition_initial h]
    show (match site.build ⟨[], .root (some p)⟩ with | .ok q => _ | .error e => _) = _
    simp only [Site.build, Draft.finish, List.isEmpty_nil, if_true, ok_bind, Predicate.render]
    cases p.render site.factory site.entity <;> rfl

theorem query_none (site : Site Q) (subject : SubjectOf) :
    query site subject none = .ok (site.factory.matchAll site.entity) := rfl

end Render

end EntitySearch
