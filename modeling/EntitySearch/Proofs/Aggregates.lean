/-
What aggregates compute, and what is recorded of them.

`AggregateExpr.value` is the value of an aggregate as it is written, where DISTINCT takes each different value once, and
`Aggregation.value` that of a function of a search store. Only a count has a function of its own for different values.
Minimum and maximum do not need one, but a sum and an average do: of these DISTINCT is left out, and they keep their
meaning only without it (`of_keeps_iff`). `compile_aggregates` finds the function and the property for every aggregate
in SELECT and in HAVING.
-/
import EntitySearch.Proofs.Engine
import EntitySearch.Proofs.Render.Leaves
import Mathlib.Algebra.BigOperators.Group.Multiset.Basic
import Mathlib.Data.Finset.Dedup
import Mathlib.Data.Finset.Max
import Mathlib.Data.Rat.Defs
import Mathlib.Tactic.NormNum

namespace EntitySearch

/-! ## Values of a property -/

/-- the values of a property in what is found: at least one, in no order -/
structure Values where
  all : Multiset ℤ
  given : all ≠ 0

namespace Values

/-- each different value once -/
def distinct (vs : Values) : Values where
  all := vs.all.dedup
  given := mt Multiset.dedup_eq_zero.1 vs.given

def sum (vs : Values) : ℚ := vs.all.sum

def mean (vs : Values) : ℚ := vs.sum / vs.all.card

theorem nonempty (vs : Values) : vs.all.toFinset.Nonempty := Multiset.toFinset_nonempty.2 vs.given

def least (vs : Values) : ℤ := vs.all.toFinset.min' vs.nonempty

def greatest (vs : Values) : ℤ := vs.all.toFinset.max' vs.nonempty

def number (vs : Values) : ℕ := vs.all.card

/-- the least value is the least of the different ones -/
@[simp] theorem least_distinct (vs : Values) : vs.distinct.least = vs.least := by
  simp only [least, distinct, Multiset.toFinset_dedup]

@[simp] theorem greatest_distinct (vs : Values) : vs.distinct.greatest = vs.greatest := by
  simp only [greatest, distinct, Multiset.toFinset_dedup]

/-- a value that is there more often than another -/
def uneven : Values := ⟨{1, 1, 3}, by decide⟩

theorem dedup_uneven : uneven.all.dedup = {1, 3} := by decide

/-- the sum of all values, and of the different ones -/
theorem sum_uneven : uneven.sum = 5 ∧ uneven.distinct.sum = 4 := by
  constructor
  · norm_num [sum, uneven]
  · norm_num [sum, distinct, dedup_uneven]

theorem mean_uneven : uneven.mean = 5 / 3 ∧ uneven.distinct.mean = 2 := by
  constructor
  · rw [mean, sum_uneven.1]
    norm_num [uneven]
  · rw [mean, sum_uneven.2]
    norm_num [distinct, dedup_uneven]

end Values

/-! ## The meaning of an aggregate -/

/-- what an aggregate without DISTINCT gives -/
def AggregateName.value (vs : Values) : AggregateName → ℚ
  | .sum => vs.sum
  | .avg => vs.mean
  | .min => vs.least
  | .max => vs.greatest
  | .count => vs.number

/-- **What an aggregate gives, as it is written**: DISTINCT takes each different value once. -/
def AggregateExpr.value (a : AggregateExpr) (vs : Values) : ℚ :=
  a.function.value (if a.distinct then vs.distinct else vs)

/-- what a search store gives for a function -/
def Aggregation.value (vs : Values) : Aggregation → ℚ
  | .sum => vs.sum
  | .avg => vs.mean
  | .min => vs.least
  | .max => vs.greatest
  | .count => vs.number
  | .countDistinct => vs.distinct.number

/-- the aggregate has a function of its own -/
def AggregateExpr.HasFunction (a : AggregateExpr) : Prop :=
  a.distinct = true → a.function ≠ .sum ∧ a.function ≠ .avg

namespace Aggregation

/-- without DISTINCT, every aggregate is what its function gives -/
theorem of_plain (function : AggregateName) (path : PathExpr) (vs : Values) :
    (of function false).value vs = AggregateExpr.value ⟨function, false, path⟩ vs := by
  cases function <;> rfl

/-- **An aggregate keeps its meaning** if and only if it is no sum and no average over different values. -/
theorem of_keeps_iff (a : AggregateExpr) :
    (∀ vs, (of a.function a.distinct).value vs = a.value vs) ↔ a.HasFunction := by
  obtain ⟨function, distinct, path⟩ := a
  cases distinct with
  | false => exact iff_of_true (of_plain function path) (absurd · Bool.false_ne_true)
  | true =>
    cases function with
    | sum =>
      refine iff_of_false (fun h => ?_) fun h => (h rfl).1 rfl
      have same : Values.uneven.sum = Values.uneven.distinct.sum := h .uneven
      norm_num [Values.sum_uneven] at same
    | avg =>
      refine iff_of_false (fun h => ?_) fun h => (h rfl).2 rfl
      have same : Values.uneven.mean = Values.uneven.distinct.mean := h .uneven
      norm_num [Values.mean_uneven] at same
    | min =>
      refine iff_of_true (fun vs => ?_) (by simp [AggregateExpr.HasFunction])
      simp [of, value, AggregateExpr.value, AggregateName.value]
    | max =>
      refine iff_of_true (fun vs => ?_) (by simp [AggregateExpr.HasFunction])
      simp [of, value, AggregateExpr.value, AggregateName.value]
    | count => exact iff_of_true (fun _ => rfl) (by simp [AggregateExpr.HasFunction])

/-- an aggregate that has no function of its own gets that of the one without DISTINCT -/
theorem of_without_distinct {a : AggregateExpr} (h : ¬a.HasFunction) (vs : Values) :
    (of a.function a.distinct).value vs = ({ a with distinct := false } : AggregateExpr).value vs := by
  obtain ⟨function, distinct, path⟩ := a
  cases distinct with
  | false => exact of_plain function path vs
  | true =>
    cases function with
    | sum => rfl
    | avg => rfl
    | _ => exact absurd (by simp [AggregateExpr.HasFunction]) h

end Aggregation

/-! ## What is recorded -/

/-- What is recorded for an aggregate: the property to which its reference points, and a function that keeps its meaning
if it has one, and else that of the aggregate without DISTINCT. -/
structure AggregateExpr.RecordedAs (naming : Naming) (a : AggregateExpr) (f : Aggregation) (property : String) :
    Prop where
  property : property = Text.dotted (naming.expand a.path.segments)
  keeps : (∀ vs, f.value vs = a.value vs) ↔ a.HasFunction
  otherwise : ¬a.HasFunction → ∀ vs, f.value vs = ({ a with distinct := false } : AggregateExpr).value vs

theorem AggregateExpr.recordedAs_of (naming : Naming) (a : AggregateExpr) :
    a.RecordedAs naming (.of a.function a.distinct) (Text.dotted (naming.expand a.path.segments)) where
  property := rfl
  keeps := Aggregation.of_keeps_iff a
  otherwise := Aggregation.of_without_distinct

/-- what the projection of an item of SELECT records of it, if it is an aggregate -/
def SelectItem.Recorded (naming : Naming) (item : SelectItem) (p : Projection) : Prop :=
  ∀ a, item = .aggregate a → ∃ f property, p = .aggregate f property ∧ a.RecordedAs naming f property

/-- what a leaf records of an aggregate in HAVING -/
def AggregateExpr.RecordedIn (naming : Naming) (a : AggregateExpr) (l : Positive) : Prop :=
  ∃ f, l.1 = some f ∧ a.RecordedAs naming f l.2.property

def Operand.aggregate? : Operand → Option AggregateExpr
  | .aggregate a => some a
  | _ => none

/-- the aggregates that are written in a condition, in their order -/
def Condition.aggregates (w : Condition Operand) : List AggregateExpr := w.operands.filterMap Operand.aggregate?

/-- the items that are written in SELECT -/
def Statement.items (q : Statement) : List SelectItem := (q.select.map (·.items)).getD []

section

variable {c : Catalog} {parameters : Parameters} {q : Statement} {s : ResolvedStatement} {naming : Naming}

theorem Scope.resolveItem_recorded {scope : Scope} {target : Target} (h : scope.Follows c naming)
    (ht : scope.target = some target) (inside : scope.inSelect = true) {item : SelectItem} {i : ResolvedItem}
    {p : Projection} (hi : scope.resolveItem c item = .ok i) (hp : Render.projection scope.aliases i = .ok p) :
    item.Recorded naming p := by
  rintro a rfl
  obtain ⟨path, hpath, hi⟩ := bind_eq_ok.1 hi
  cases hi
  obtain ⟨at_path, hat, hpath⟩ := bind_eq_ok.1 hpath
  cases hpath
  obtain ⟨canonical, -⟩ := resolveProperty_selectable h ht inside hat
  rw [Render.projection, Scope.propertyName_of_canonical canonical] at hp
  cases hp
  exact ⟨_, _, rfl, a.recordedAs_of naming⟩

/-- every aggregate in SELECT has its projection -/
theorem items_recorded (resolved : q.resolve c parameters = .ok s) {r : QueryResult Trace}
    (rendered : s.render c Trace.factory = .ok r) :
    List.Forall₂ (SelectItem.Recorded q.naming) q.items r.projections := by
  have resolves := Statement.resolve_ok resolved
  have renders := ResolvedStatement.render_ok rendered
  refine forall₂_chain (fun item i p hi hp => ?_) resolves.items renders.projections
  exact Scope.resolveItem_recorded (resolves.follows.enter .select) s.scope_target rfl hi hp

/-- a condition in HAVING that is resolved compares aggregates, and no plain properties -/
theorem having_subjects (resolves : q.Resolves c parameters s) {w : Condition Operand} (hw : q.having = some w)
    (convert : Conversion) :
    w.operands.filter (q.sense parameters convert).isSubject = w.aggregates.map .aggregate := by
  have resolved := resolves.having
  rw [hw] at resolved
  obtain ⟨d, hd, -⟩ := bind_eq_ok.1 resolved
  have each := (Condition.traverse_succeeds w).1 ⟨d, hd⟩
  rw [Condition.aggregates]
  clear resolved hd hw
  generalize w.operands = operands at each ⊢
  induction operands with
  | nil => rfl
  | cons o rest ih =>
    rw [List.forall_mem_cons] at each
    obtain ⟨⟨o', ho⟩, each⟩ := each
    rw [List.filter_cons, List.filterMap_cons, ih each]
    cases o with
    | path e => cases ho
    | aggregate a => rfl
    | literal l => rfl
    | named name =>
      have no_subject : (q.sense parameters convert).isSubject (.named name) = false := by
        simp only [Sense.isSubject, Sense.subject, Statement.sense, Operand.reference, Operand.given]
        cases parameters.lookup name <;> rfl
      rw [no_subject]
      rfl
    | positional n => rfl

/-- every aggregate in HAVING has its leaf, and there are no other leaves -/
theorem having_recorded (resolved : q.resolve c parameters = .ok s) {r : QueryResult Trace}
    (rendered : s.render c Trace.factory = .ok r) :
    Option.Rel (fun w t => ∃ ls, ls.Perm t.leaves ∧ List.Forall₂ (AggregateExpr.RecordedIn q.naming) w.aggregates ls)
      q.having r.having := by
  have resolves := Statement.resolve_ok resolved
  have recorded := (render_resolve_records resolved rendered).having
  have subjects (w : Condition Operand) (hw : q.having = some w) := having_subjects resolves hw
  generalize q.having = written, r.having = made at recorded subjects ⊢
  cases recorded with
  | none => exact .none
  | some record =>
    rename_i w t
    obtain ⟨ls, perm, each⟩ := Condition.record_subjects record
    refine .some ⟨ls, perm, ?_⟩
    rw [subjects w rfl, List.forall₂_map_left_iff] at each
    refine each.imp fun a l about => ?_
    obtain ⟨subject, found, function, property⟩ := about
    cases found
    exact ⟨_, function, property ▸ a.recordedAs_of q.naming⟩

end

namespace Engine

variable {Q : Type} (config : Config) (c : Catalog) (parameters : Parameters) (f : Factory Q) (text : String)

/-- **Every aggregate in SELECT and in HAVING is recorded**, with its property, and with a function that keeps its
meaning if there is one; a sum and an average over different values lose their DISTINCT. -/
theorem compile_aggregates {r : QueryResult Q} (h : compile config c parameters f text = .ok r) :
    ∃ q record, read config text = .ok q ∧ compile config c parameters Trace.factory text = .ok record ∧
      r = record.map (Trace.replay f) ∧ List.Forall₂ (SelectItem.Recorded q.naming) q.items r.projections ∧
      Option.Rel
        (fun w t => ∃ ls, ls.Perm t.leaves ∧ List.Forall₂ (AggregateExpr.RecordedIn q.naming) w.aggregates ls)
        q.having record.having := by
  rw [compile_replay] at h
  obtain ⟨record, hrecord, rfl⟩ := map_eq_ok.1 h
  obtain ⟨q, hq, hcompile⟩ := bind_eq_ok.1 hrecord
  obtain ⟨s, resolved, rendered⟩ := bind_eq_ok.1 hcompile
  exact ⟨q, record, hq, hrecord, rfl, items_recorded resolved rendered, having_recorded resolved rendered⟩

/-- Sums and averages of the difficulties that there are, different ones only. -/
theorem compile_differentHikes_aggregates : ∃ r,
    compile .standard hikes [] Trace.factory
      "SELECT SUM(DISTINCT difficulty), MAX(DISTINCT difficulty) FROM Hike HAVING AVG(DISTINCT difficulty) > 1" =
        .ok r ∧
    ∃ q record,
      read .standard
        "SELECT SUM(DISTINCT difficulty), MAX(DISTINCT difficulty) FROM Hike HAVING AVG(DISTINCT difficulty) > 1" =
          .ok q ∧
      compile .standard hikes [] Trace.factory
        "SELECT SUM(DISTINCT difficulty), MAX(DISTINCT difficulty) FROM Hike HAVING AVG(DISTINCT difficulty) > 1" =
          .ok record ∧
      r = record.map (Trace.replay Trace.factory) ∧
      List.Forall₂ (SelectItem.Recorded q.naming) q.items r.projections ∧
      Option.Rel
        (fun w t => ∃ ls, ls.Perm t.leaves ∧ List.Forall₂ (AggregateExpr.RecordedIn q.naming) w.aggregates ls)
        q.having record.having := by
  obtain ⟨r, hr⟩ := exists_of_isOk (show (compile .standard hikes [] Trace.factory
    "SELECT SUM(DISTINCT difficulty), MAX(DISTINCT difficulty) FROM Hike HAVING AVG(DISTINCT difficulty) > 1").isOk =
      true by decide +kernel)
  exact ⟨r, hr, compile_aggregates .standard hikes [] Trace.factory _ hr⟩

/-- The sum of the different difficulties is recorded as the sum of all, another number where one is there twice. -/
theorem compile_sumOfDifferent_overcounts :
    (read .standard "SELECT SUM(DISTINCT difficulty) FROM Hike").toOption.map (·.items) =
        some [.aggregate ⟨.sum, true, ⟨["difficulty"], none⟩⟩] ∧
      (compile .standard hikes [] Trace.factory "SELECT SUM(DISTINCT difficulty) FROM Hike").toOption.map
        (·.projections) = some [.aggregate .sum "difficulty"] ∧
      Aggregation.sum.value .uneven ≠ AggregateExpr.value ⟨.sum, true, ⟨["difficulty"], none⟩⟩ .uneven := by
  refine ⟨by decide +kernel, by decide +kernel, ?_⟩
  show Values.uneven.sum ≠ Values.uneven.distinct.sum
  norm_num [Values.sum_uneven]

end Engine

end EntitySearch
