/-
Resolving a whole query: first the FROM clause with its joins, which binds the aliases, then SELECT, WHERE, GROUP BY,
HAVING and ORDER BY.

WHERE conditions compare properties and HAVING conditions aggregates; each finds the other kind of operand out of
place. The first fault in that order, and in each condition from left to right, is the one reported.
-/
import EntitySearch.Resolve.Resolved

namespace EntitySearch

/-- the two clauses that hold conditions -/
inductive Clause where
  | filter
  | having
  deriving DecidableEq, Repr

namespace Scope

/-- the path of an aggregate, which must mean a property -/
def resolveAggregate (c : Catalog) (s : Scope) (a : AggregateExpr) : Except QueryError AggregatePath := do
  .ok ⟨.of a.function a.distinct, ← s.resolveProperty c a.path⟩

/-- an operand of a condition in a clause -/
def resolveOperand (c : Catalog) (parameters : Parameters) (s : Scope) (clause : Clause) :
    Operand → Except QueryError ResolvedOperand
  | .path p =>
    match clause with
    | .filter => do .ok (.path (← s.resolveProperty c p))
    | .having => .error (.unsupported (.plainPropertyInHaving p.text))
  | .aggregate a =>
    match clause with
    | .filter =>
      .error (.unsupported (.aggregateOutsideHaving ((Aggregation.of a.function a.distinct).applied a.path.text)))
    | .having => do .ok (.aggregate (← s.resolveAggregate c a))
  | .literal l => .ok (.literal l.text)
  | .named name =>
    match parameters.lookup name with
    | some value => .ok (.parameter name value)
    | none => .error (.unbound name)
  | .positional _ => .error (.unsupported .positionalParameter)

end Scope

namespace Condition

variable {α β ε : Type}

mutual

/-- the condition with every operand resolved, from left to right up to the first fault -/
def traverse (f : α → Except ε β) : Condition α → Except ε (Condition β)
  | .and cs => do .ok (.and (← traverseAll f cs))
  | .or cs => do .ok (.or (← traverseAll f cs))
  | .not c => do .ok (.not (← traverse f c))
  | .compare r left right => do .ok (.compare r (← f left) (← f right))
  | .between operand lower upper negated => do .ok (.between (← f operand) (← f lower) (← f upper) negated)
  | .among operand values negated => do .ok (.among (← f operand) (← values.mapM f) negated)
  | .like operand pattern escape negated => do .ok (.like (← f operand) (← f pattern) escape negated)
  | .isNull operand negated => do .ok (.isNull (← f operand) negated)

def traverseAll (f : α → Except ε β) : List (Condition α) → Except ε (List (Condition β))
  | [] => .ok []
  | c :: rest => do .ok ((← traverse f c) :: (← traverseAll f rest))

end

end Condition

namespace Scope

/-- the condition of a clause -/
def resolveCondition (c : Catalog) (parameters : Parameters) (s : Scope) (clause : Clause) :
    Condition Operand → Except QueryError (Condition ResolvedOperand) :=
  Condition.traverse (s.resolveOperand c parameters clause)

/-- the scope behind an operation that succeeded -/
def succeeded : Except QueryError Unit × Scope → Except QueryError Scope
  | (.ok (), s) => .ok s
  | (.error e, _) => .error e

/-- the entities of the FROM clause -/
def addSources (c : Catalog) (s : Scope) (sources : List Source) : Except QueryError Scope :=
  sources.foldlM (fun s source => succeeded (s.addSource c source.entity source.name)) s

/-- the joins, each of which may use the aliases before it -/
def addJoins (c : Catalog) (s : Scope) (joins : List Join) : Except QueryError Scope :=
  joins.foldlM (fun s join => do succeeded (s.addJoin join.name (← s.resolvePath c join.path))) s

/-- an item of the SELECT list -/
def resolveItem (c : Catalog) (s : Scope) : SelectItem → Except QueryError ResolvedItem
  | .path p => do .ok (.path (← s.resolvePath c p))
  | .aggregate a => do .ok (.aggregate (← s.resolveAggregate c a))

end Scope

/-- a condition that may be left out -/
def resolveOptional (c : Catalog) (parameters : Parameters) (s : Scope) (clause : Clause) :
    Option (Condition Operand) → Except QueryError (Option (Condition ResolvedOperand))
  | none => .ok none
  | some condition => do .ok (some (← s.resolveCondition c parameters clause condition))

/-- the query with its names resolved -/
def Statement.resolve (c : Catalog) (parameters : Parameters) (q : Statement) :
    Except QueryError ResolvedStatement := do
  let s ← (Scope.initial.enter .sources).addSources c q.sources
  let s ← s.addJoins c q.joins
  let s := s.leave
  let items ← ((q.select.map (·.items)).getD []).mapM ((s.enter .select).resolveItem c)
  let filter ← resolveOptional c parameters s .filter q.filter
  let groupBy ← (q.groupBy.getD []).mapM (s.resolveProperty c)
  let having ← resolveOptional c parameters s .having q.having
  let orderBy ← (q.orderBy.getD []).mapM fun item => do
    .ok (⟨← (s.enter .order).resolveProperty c item.path, item.ascending⟩ : ResolvedOrder)
  match s.target with
  | none => .error Scope.noTarget
  | some target =>
    .ok ⟨target, (q.select.map (·.distinct)).getD false, items, filter, groupBy, having, orderBy, s.aliases⟩

end EntitySearch
