/-
Literals are typed by their place.

A literal that is compared with a property, or with an aggregate of one, becomes a value of the kind that belongs there.
In a query that compiles, every value in the leaves has its place in WHERE or HAVING, and if it is written there as a
literal, it is of that kind and, as a whole number, the integer that the literal denotes (`literals_typed`). A literal
that denotes no 64-bit integer where one belongs stops the compilation, with a fault that names the property and the
literal, or with one that is found before it is looked at (`long_fails`). Both hold of every text (`compile_literals`).
-/
import EntitySearch.Proofs.Engine
import EntitySearch.Proofs.Render.Conversion

namespace EntitySearch

/-- the property to which an operand points, or the aggregate of one -/
def Statement.pointsTo (q : Statement) (o : Operand) : Option Subject :=
  o.reference.map fun (f, e) => ⟨f, q.naming.expand e.segments⟩

/-! ## Values in leaves -/

/-- what properties, and aggregates of them, are compared with in a condition, in the order of the text -/
def Condition.places (w : Condition Operand) : List (Operand × Operand) :=
  w.compared.filter fun place => place.1.reference.isSome

/-- The value is of the kind that belongs beside the subject, and a whole number is the integer that the literal
denotes. -/
def Literal.Means (c : Catalog) (entity : String) (l : Literal) (s : Subject) (v : Value) : Prop :=
  c.kindBeside entity s = some v.kind ∧
    ∀ n, v = .long n → Number.Denotes l.text n ∧ Number.minLong ≤ n ∧ n ≤ Number.maxLong

/-- A value belongs to a place: it stands beside what the place is about, and if it is written there as a literal, it is
what the literal means there. -/
def Statement.Typed (c : Catalog) (entity : String) (q : Statement) (place : Operand × Operand) (v : Positive × Value) :
    Prop :=
  ∃ s, q.pointsTo place.1 = some s ∧ v.1.1 = s.aggregation ∧ v.1.2.property = s.property ∧
    ∀ l, place.2 = .literal l → l.Means c entity s v.2

/-- Each value in the leaves belongs to one place in WHERE, or in HAVING, and each place has its value. -/
structure QueryResult.LiteralsTyped (c : Catalog) (q : Statement) (r : QueryResult Trace) : Prop where
  filter : ∃ vs, vs.Perm r.query.values ∧
    List.Forall₂ (q.Typed c r.entity) ((q.filter.map Condition.places).getD []) vs
  having : Option.Rel (fun w t => ∃ vs, vs.Perm t.values ∧ List.Forall₂ (q.Typed c r.entity) w.places vs)
    q.having r.having

section

variable {c : Catalog} {parameters : Parameters} {q : Statement} {s : ResolvedStatement} {convert : Conversion}

theorem sense_pointsTo (o : Operand) : (q.sense parameters convert).subject o = q.pointsTo o := by
  cases o with
  | named name =>
    simp only [Sense.subject, Statement.sense, Statement.pointsTo, Operand.reference, Operand.given]
    cases parameters.lookup name <;> rfl
  | _ => rfl

theorem sense_isSubject (o : Operand) : (q.sense parameters convert).isSubject o = o.reference.isSome := by
  rw [Sense.isSubject, sense_pointsTo, Statement.pointsTo, Option.isSome_map]

theorem places_eq (w : Condition Operand) :
    w.compared.filter (fun place => (q.sense parameters convert).isSubject place.1) = w.places := by
  simp only [sense_isSubject, Condition.places]

/-- what stands beside a property, converted, belongs to its place -/
theorem typed_of_beside {entity : String} {place : Operand × Operand} {v : Positive × Value}
    (h : (q.sense parameters (Site.convert ⟨c, entity, Trace.factory⟩)).Beside place v) : q.Typed c entity place v := by
  obtain ⟨s, hs, aggregation, property, hv⟩ := h
  rw [sense_pointsTo] at hs
  refine ⟨s, hs, aggregation, property, fun l hl => ?_⟩
  obtain ⟨w, hw, hx⟩ := Option.bind_eq_some_iff.1 hv
  rw [hl] at hw
  cases hw
  have made : Site.convert ⟨c, entity, Trace.factory⟩ s (.literal l.text) = .ok v.2 := toOption_eq_some.1 hx
  obtain ⟨kind, converted⟩ := Render.kindBeside_of_convert made
  refine ⟨kind, fun n hn => ?_⟩
  rw [hn] at converted
  obtain ⟨m, hm, denoted⟩ := Kind.convert_long_iff.1 converted
  cases hm
  exact denoted

theorem record_typed {entity : String} {w : Condition Operand} {t : Trace}
    (h : w.record (q.sense parameters (Site.convert ⟨c, entity, Trace.factory⟩)) entity = some t) :
    ∃ vs, vs.Perm t.values ∧ List.Forall₂ (q.Typed c entity) w.places vs := by
  obtain ⟨vs, perm, each⟩ := Condition.record_values h
  rw [places_eq] at each
  exact ⟨vs, perm, each.imp fun _ _ => typed_of_beside⟩

/-- **Literals are typed by their place** in what is rendered. -/
theorem literals_typed (resolved : q.resolve c parameters = .ok s) {r : QueryResult Trace}
    (rendered : s.render c Trace.factory = .ok r) : r.LiteralsTyped c q := by
  obtain ⟨filter, having⟩ := render_resolve_records resolved rendered
  constructor
  · cases hw : q.filter with
    | none =>
      rw [hw] at filter
      rw [← Option.some.inj filter]
      exact ⟨[], .refl _, .nil⟩
    | some w =>
      rw [hw] at filter
      exact record_typed filter
  · generalize q.having = written, r.having = made at having ⊢
    cases having with
    | none => exact .none
    | some h => exact .some (record_typed h)

end

/-! ## Whole numbers -/

/-- the literal denotes no 64-bit integer -/
def Literal.NoLong (l : Literal) : Prop :=
  ∀ n, ¬(Number.Denotes l.text n ∧ Number.minLong ≤ n ∧ n ≤ Number.maxLong)

namespace Statement

/-- the condition of a clause -/
def condition (q : Statement) : Clause → Option (Condition Operand)
  | .filter => q.filter
  | .having => q.having

/-- the query with another condition in a clause -/
def withCondition (q : Statement) (w : Condition Operand) : Clause → Statement
  | .filter => { q with filter := some w }
  | .having => { q with having := some w }

/-- A literal in a query, beside what it is compared with: the clause, the tests before its own, and the values that
stand with it on its side of the test. -/
structure Place (q : Statement) where
  clause : Clause
  before : List (Condition Operand)
  test : Condition Operand
  operand : Operand
  earlier : List Operand
  literal : Literal
  later : List Operand
  subject : Subject
  inClause : ∃ w after, q.condition clause = some w ∧ w.tests = before ++ test :: after
  inTest : (operand, earlier ++ .literal literal :: later) ∈ test.sides
  points : q.pointsTo operand = some subject

namespace Place

variable {q : Statement} (p : q.Place)

/-- the query with no more in the clause than the tests before the place -/
def upTo : Statement := q.withCondition (.and p.before) p.clause

/-- the fault of the literal, or of another one in its place -/
def invalid (l : Literal) : QueryError := .schema (.invalidValue p.subject.shown l.text Kind.long.name)

/-- Faults that are found before the literal is looked at: when names are resolved, in the tests before its own, or in
its own, if another operand is no value or an earlier literal no whole number. -/
inductive FoundBefore (c : Catalog) (parameters : Parameters) : QueryError → Prop where
  | names {e : QueryError} (h : q.resolve c parameters = .error e) : FoundBefore c parameters e
  | tests {e : QueryError} (h : p.upTo.compile c parameters Trace.factory = .error e) : FoundBefore c parameters e
  | operand {o : Operand} (beside : o ∈ p.earlier ++ p.later) (refers : o.reference.isSome) (left right : String) :
    FoundBefore c parameters (.unsupported (.propertyComparison left right))
  | literal {l : Literal} (earlier : .literal l ∈ p.earlier) (none_denoted : l.NoLong) :
    FoundBefore c parameters (p.invalid l)

end Place

end Statement

section

variable {c : Catalog} {parameters : Parameters} {q : Statement} {s : ResolvedStatement}

/-- the resolved condition of a clause -/
def ResolvedStatement.condition (s : ResolvedStatement) : Clause → Option (Condition ResolvedOperand)
  | .filter => s.filter
  | .having => s.having

/-- an operand that is no value refers to a property -/
theorem reference_of_value? {scope : Scope} {clause : Clause} {o : Operand} {o' : ResolvedOperand}
    (ho : scope.resolveOperand c parameters clause o = .ok o') (no_value : o'.value? = none) :
    o.reference.isSome := by
  cases o with
  | path e => rfl
  | aggregate a => rfl
  | literal l =>
    cases ho
    cases no_value
  | named name =>
    simp only [Scope.resolveOperand] at ho
    split at ho
    · cases ho
      cases no_value
    · cases ho
  | positional n => cases ho

theorem literal_of_value? {scope : Scope} {clause : Clause} {o : Operand} {o' : ResolvedOperand} {text : String}
    (ho : scope.resolveOperand c parameters clause o = .ok o') (value : o'.value? = some (.literal text)) :
    ∃ l, o = .literal l ∧ l.text = text := by
  cases o with
  | path e =>
    cases clause with
    | having => cases ho
    | filter =>
      obtain ⟨p, -, ho⟩ := bind_eq_ok.1 ho
      cases ho
      cases value
  | aggregate a =>
    cases clause with
    | filter => cases ho
    | having =>
      obtain ⟨p, -, ho⟩ := bind_eq_ok.1 ho
      cases ho
      cases value
  | literal l =>
    cases ho
    cases value
    exact ⟨l, rfl, rfl⟩
  | named name =>
    simp only [Scope.resolveOperand] at ho
    split at ho
    · cases ho
      cases value
    · cases ho
  | positional n => cases ho

/-- an operand that points to a property is resolved to one that is about it -/
theorem subject_of_pointsTo (resolves : q.Resolves c parameters s) {clause : Clause} {o : Operand}
    {o' : ResolvedOperand} (ho : s.scope.resolveOperand c parameters clause o = .ok o') {subject : Subject}
    (points : q.pointsTo o = some subject) : clause.subject s.aliases o' = .ok (some subject) := by
  cases Scope.resolveOperand_ok resolves.follows s.scope_target rfl ho with
  | property reference found =>
    rw [Statement.pointsTo, reference] at points
    exact found.trans (congrArg Except.ok points)
  | value reference =>
    rw [Statement.pointsTo, reference] at points
    cases points

/-- **The test of a bad literal fails**, for the literal or for what is found before it. -/
theorem Statement.Place.test_fails (p : q.Place) (resolves : q.Resolves c parameters s)
    (long : c.kindBeside s.target.entity p.subject = some .long) (bad : p.literal.NoLong)
    {d : Condition ResolvedOperand} (hd : s.scope.resolveCondition c parameters p.clause p.test = .ok d) :
    ∃ e, Render.record (Site.convert ⟨c, s.target.entity, Trace.factory⟩) (p.clause.subject s.aliases) s.target.entity
        d = .error e ∧ (e = p.invalid p.literal ∨ p.FoundBefore c parameters e) := by
  obtain ⟨o, vs, ho, hvs, side⟩ := Condition.traverse_sides hd p.inTest
  have subject := subject_of_pointsTo resolves ho p.points
  simp only [List.mapM_append, List.mapM_cons, bind_eq_ok, pure, Except.pure, Except.ok.injEq] at hvs
  obtain ⟨before, hbefore, _, ⟨v, hv, after, hafter, rfl⟩, rfl⟩ := hvs
  cases hv
  have value : (ResolvedOperand.literal p.literal.text).value? = some (.literal p.literal.text) := rfl
  have fault : Site.convert ⟨c, s.target.entity, Trace.factory⟩ p.subject (.literal p.literal.text) =
      .error (p.invalid p.literal) := Render.convert_long_fails long bad
  obtain ⟨e, he, cause⟩ := Render.sides_fault value fault
  have same : Render.SameFault
      (Render.record (Site.convert ⟨c, s.target.entity, Trace.factory⟩) (p.clause.subject s.aliases) s.target.entity d)
      (Render.sideValues (Site.convert ⟨c, s.target.entity, Trace.factory⟩) p.subject o
        (before ++ .literal p.literal.text :: after)) :=
    Render.record_sides (Clause.subject_passesValues s.aliases p.clause) subject
      ⟨.literal p.literal.text, by simp, by simp [value]⟩ side
  refine ⟨e, same.fails he, ?_⟩
  cases cause with
  | bad => exact .inl rfl
  | operand beside no_value =>
    have written : List.Forall₂ (fun o o' => s.scope.resolveOperand c parameters p.clause o = .ok o')
        (p.earlier ++ p.later) (before ++ after) := List.rel_append (mapM_eq_ok.1 hbefore) (mapM_eq_ok.1 hafter)
    obtain ⟨u, hu, resolved⟩ := forall₂_right written _ beside
    exact .inr (.operand hu (reference_of_value? resolved no_value) _ _)
  | earlier before_bad value fault =>
    obtain ⟨u, hu, resolved⟩ := forall₂_right (mapM_eq_ok.1 hbefore) _ before_bad
    obtain ⟨text, rfl, rfl, none_denoted⟩ := Render.literal_of_fault long fault
    obtain ⟨l, rfl, rfl⟩ := literal_of_value? resolved value
    exact .inr (.literal hu none_denoted)

/-- nothing is wrong with the projections of a resolved query -/
theorem projections_made (resolves : q.Resolves c parameters s) :
    ∃ ps, s.items.mapM (Render.projection s.aliases) = .ok ps := by
  refine mapM_succeeds.2 fun i hi => ?_
  obtain ⟨item, -, hitem⟩ := forall₂_right resolves.items i hi
  obtain ⟨p, hp, -⟩ := Scope.projection_sound (resolves.follows.enter .select) s.scope_target rfl hitem
  exact ⟨p, hp⟩

/-- the query of the condition in a clause -/
def ResolvedStatement.query (s : ResolvedStatement) (c : Catalog) (clause : Clause) : Except QueryError Trace :=
  Render.query ⟨c, s.target.entity, Trace.factory⟩ (clause.subject s.aliases) (s.condition clause)

theorem compile_filter_fails (resolved : q.resolve c parameters = .ok s) {e : QueryError}
    (fault : s.query c .filter = .error e) : q.compile c parameters Trace.factory = .error e := by
  obtain ⟨ps, hps⟩ := projections_made (Statement.resolve_ok resolved)
  have filter : Render.query ⟨c, s.target.entity, Trace.factory⟩ (ResolvedOperand.propertySubject s.aliases) s.filter =
      .error e := fault
  rw [Statement.compile, resolved, ok_bind, ResolvedStatement.render, hps, ok_bind, filter]
  rfl

theorem compile_having_fails (resolved : q.resolve c parameters = .ok s) {t : Trace} {e : QueryError}
    (made : s.query c .filter = .ok t) {d : Condition ResolvedOperand} (hd : s.having = some d)
    (fault : s.query c .having = .error e) : q.compile c parameters Trace.factory = .error e := by
  obtain ⟨ps, hps⟩ := projections_made (Statement.resolve_ok resolved)
  have filter : Render.query ⟨c, s.target.entity, Trace.factory⟩ (ResolvedOperand.propertySubject s.aliases) s.filter =
      .ok t := made
  have having : Render.query ⟨c, s.target.entity, Trace.factory⟩ (ResolvedOperand.aggregateSubject s.aliases) (some d) =
      .error e := hd ▸ fault
  rw [Statement.compile, resolved, ok_bind, ResolvedStatement.render, hps, ok_bind, filter, ok_bind, hd]
  simp only [having]
  rfl

/-- **A fault in a clause is a fault of the query**, unless one is found in WHERE before HAVING is looked at. -/
theorem compile_clause_fails (resolved : q.resolve c parameters = .ok s) {clause : Clause}
    {d : Condition ResolvedOperand} (hd : s.condition clause = some d) {e : QueryError}
    (fault : s.query c clause = .error e)
    (clear : clause = .having → ∃ t, s.query c .filter = .ok t) : q.compile c parameters Trace.factory = .error e := by
  cases clause with
  | filter => exact compile_filter_fails resolved fault
  | having =>
    obtain ⟨t, made⟩ := clear rfl
    exact compile_having_fails resolved made hd fault

/-- the resolved query with another condition in a clause -/
def ResolvedStatement.withCondition (s : ResolvedStatement) (d : Condition ResolvedOperand) :
    Clause → ResolvedStatement
  | .filter => { s with filter := some d }
  | .having => { s with having := some d }

namespace ResolvedStatement

variable (s) (d : Condition ResolvedOperand) (clause : Clause)

theorem condition_withCondition : (s.withCondition d clause).condition clause = some d := by
  cases clause <;> rfl

/-- the query of a clause is the record of its condition -/
theorem query_of_condition (hd : s.condition clause = some d) : s.query c clause =
    Render.record (Site.convert ⟨c, s.target.entity, Trace.factory⟩) (clause.subject s.aliases) s.target.entity d := by
  rw [query, hd, Render.query_record]

theorem query_withCondition : (s.withCondition d clause).query c clause =
    Render.record (Site.convert ⟨c, s.target.entity, Trace.factory⟩) (clause.subject s.aliases) s.target.entity d := by
  rw [query_of_condition _ d clause (condition_withCondition s d clause)]
  cases clause <;> rfl

/-- the condition in HAVING does not show in WHERE -/
theorem filter_withCondition (having : clause = .having) :
    (s.withCondition d clause).query c .filter = s.query c .filter := by
  subst having
  rfl

end ResolvedStatement

/-- with another condition that is resolved, the query is resolved -/
theorem resolve_withCondition (resolved : q.resolve c parameters = .ok s) {clause : Clause} {w : Condition Operand}
    {d : Condition ResolvedOperand} (hd : s.scope.resolveCondition c parameters clause w = .ok d) :
    (q.withCondition w clause).resolve c parameters = .ok (s.withCondition d clause) := by
  obtain ⟨front, back, steps⟩ := Statement.resolve_iff.1 resolved
  have given : resolveOptional c parameters s.scope clause (some w) = .ok (some d) := by
    rw [resolveOptional, hd]
    rfl
  cases clause with
  | filter => exact Statement.resolve_iff.2 ⟨front, back, { steps with filter := given }⟩
  | having => exact Statement.resolve_iff.2 ⟨front, back, { steps with having := given }⟩

theorem resolved_condition (resolves : q.Resolves c parameters s) {clause : Clause} {w : Condition Operand}
    (hw : q.condition clause = some w) :
    ∃ d, s.condition clause = some d ∧ s.scope.resolveCondition c parameters clause w = .ok d := by
  have given : resolveOptional c parameters s.scope clause (q.condition clause) = .ok (s.condition clause) := by
    cases clause with
    | filter => exact resolves.filter
    | having => exact resolves.having
  rw [hw] at given
  obtain ⟨d, hd, made⟩ := bind_eq_ok.1 given
  exact ⟨d, (Except.ok.inj made).symm, hd⟩

/-- The query up to a place is resolved to the tests before it. -/
theorem Statement.Place.upTo_resolved (p : q.Place) (resolved : q.resolve c parameters = .ok s)
    {before : List (Condition ResolvedOperand)}
    (hbefore : p.before.mapM (s.scope.resolveCondition c parameters p.clause) = .ok before) :
    p.upTo.resolve c parameters = .ok (s.withCondition (.and before) p.clause) := by
  refine resolve_withCondition resolved ?_
  have all : Condition.traverseAll (s.scope.resolveOperand c parameters p.clause) p.before = .ok before :=
    (Condition.traverseAll_eq_mapM _ _).trans hbefore
  rw [Scope.resolveCondition, Condition.traverse, all]
  rfl

/-- **A literal that denotes no 64-bit integer where one belongs** stops the compilation. -/
theorem long_fails (p : q.Place) (bad : p.literal.NoLong)
    (long : ∀ s, q.resolve c parameters = .ok s → c.kindBeside s.target.entity p.subject = some .long) :
    ∃ e, q.compile c parameters Trace.factory = .error e ∧
      (e = p.invalid p.literal ∨ p.FoundBefore c parameters e) := by
  cases resolved : q.resolve c parameters with
  | error e => exact ⟨e, by rw [Statement.compile, resolved]; rfl, .inr (.names resolved)⟩
  | ok s =>
    have resolves := Statement.resolve_ok resolved
    obtain ⟨w, after, hw, tests⟩ := p.inClause
    obtain ⟨d, hd, traversed⟩ := resolved_condition resolves hw
    have each := Condition.traverse_tests w traversed
    simp only [tests, List.mapM_append, List.mapM_cons, bind_eq_ok, pure, Except.pure, Except.ok.injEq] at each
    obtain ⟨before, hbefore, _, ⟨test, htest, rest, -, rfl⟩, split⟩ := each
    obtain ⟨e, fault, cause⟩ := p.test_fails resolves (long s resolved) bad htest
    obtain ⟨e', fault', earlier⟩ := Render.record_fails split.symm fault
    rw [← ResolvedStatement.query_of_condition s d p.clause hd] at fault'
    rw [← ResolvedStatement.query_withCondition s (.and before) p.clause] at earlier
    have cut := p.upTo_resolved resolved hbefore
    have cut_condition := ResolvedStatement.condition_withCondition s (.and before) p.clause
    -- a fault in WHERE is found before HAVING is looked at, up to the place as in the whole query
    by_cases clear : p.clause = .having → ∃ t, s.query c .filter = .ok t
    · have cut_clear (having : p.clause = .having) :
          ∃ t, (s.withCondition (.and before) p.clause).query c .filter = .ok t := by
        rw [ResolvedStatement.filter_withCondition s _ p.clause having]
        exact clear having
      refine ⟨e', compile_clause_fails resolved hd fault' clear, ?_⟩
      rcases earlier with rfl | earlier
      · exact cause
      · exact .inr (.tests (compile_clause_fails cut cut_condition earlier cut_clear))
    · rw [Classical.not_imp, not_exists] at clear
      obtain ⟨having, no_query⟩ := clear
      obtain ⟨e₀, fault₀⟩ : ∃ e₀, s.query c .filter = .error e₀ := by
        cases found : s.query c .filter with
        | error e₀ => exact ⟨e₀, rfl⟩
        | ok t => exact absurd found (no_query t)
      refine ⟨e₀, compile_filter_fails resolved fault₀, .inr (.tests (compile_filter_fails cut ?_))⟩
      rw [ResolvedStatement.filter_withCondition s _ p.clause having, fault₀]

end

/-! ## Texts -/

namespace Engine

variable {Q : Type} (config : Config) (c : Catalog) (parameters : Parameters) (f : Factory Q) (text : String)

theorem compile_of_read {q : Statement} (hq : read config text = .ok q) :
    compile config c parameters f text = q.compile c parameters f := by
  rw [compile, hq]
  rfl

/-- **Literals are typed by their place, exactly.** In what is compiled, each value that is written as a literal has the
kind of its place, and a whole number is the integer that its text denotes. A literal that denotes no 64-bit integer
where one belongs stops the compilation, with the fault that names it or with one that is found before. -/
theorem compile_literals {q : Statement} (hq : read config text = .ok q) :
    (∀ r, compile config c parameters f text = .ok r → ∃ record,
      compile config c parameters Trace.factory text = .ok record ∧ r = record.map (Trace.replay f) ∧
        record.LiteralsTyped c q) ∧
    ∀ p : q.Place, p.literal.NoLong →
      (∀ s, q.resolve c parameters = .ok s → c.kindBeside s.target.entity p.subject = some .long) →
      ∃ e, compile config c parameters f text = .error e ∧
        (e = p.invalid p.literal ∨ p.FoundBefore c parameters e) := by
  constructor
  · intro r hr
    rw [compile_replay] at hr
    obtain ⟨record, hrecord, rfl⟩ := map_eq_ok.1 hr
    refine ⟨record, hrecord, rfl, ?_⟩
    rw [compile_of_read config c parameters Trace.factory text hq] at hrecord
    obtain ⟨s, resolved, rendered⟩ := bind_eq_ok.1 hrecord
    exact literals_typed resolved rendered
  · intro p bad long
    obtain ⟨e, he, cause⟩ := long_fails p bad long
    refine ⟨e, ?_, cause⟩
    rw [compile_replay, compile_of_read config c parameters Trace.factory text hq, he]
    rfl

/-- hikes up to a difficulty -/
def hikesUpTo (high : String) : Statement where
  select := none
  sources := [⟨"Hike", some "h"⟩]
  joins := []
  filter := some (.between (.path ⟨["h", "difficulty"], none⟩) (.literal (.number "1")) (.literal (.number high)) false)
  groupBy := none
  having := none
  orderBy := none

/-- the place of the greatest difficulty -/
def highPlace (high : String) : (hikesUpTo high).Place where
  clause := .filter
  before := []
  test := .between (.path ⟨["h", "difficulty"], none⟩) (.literal (.number "1")) (.literal (.number high)) false
  operand := .path ⟨["h", "difficulty"], none⟩
  earlier := [.literal (.number "1")]
  literal := .number high
  later := []
  subject := ⟨none, ["difficulty"]⟩
  inClause := ⟨_, [], rfl, rfl⟩
  inTest := List.mem_singleton.2 rfl
  points := rfl

def hikesUpToText (high : String) : String := "FROM Hike h WHERE h.difficulty BETWEEN 1 AND " ++ high

/-- Hikes up to a difficulty of three, and of one more than there are 64-bit integers. -/
theorem compile_hikesUpTo_literals :
    (∃ r record, compile .standard hikes [] Trace.factory (hikesUpToText "3") = .ok r ∧
      compile .standard hikes [] Trace.factory (hikesUpToText "3") = .ok record ∧
        r = record.map (Trace.replay Trace.factory) ∧ record.LiteralsTyped hikes (hikesUpTo "3")) ∧
    ∃ e, compile .standard hikes [] Trace.factory (hikesUpToText "9223372036854775808") = .error e ∧
      (e = (highPlace "9223372036854775808").invalid (.number "9223372036854775808") ∨
        (highPlace "9223372036854775808").FoundBefore hikes [] e) := by
  constructor
  · have read_three : read .standard (hikesUpToText "3") = .ok (hikesUpTo "3") :=
      toOption_eq_some.1 (by decide +kernel)
    obtain ⟨r, hr⟩ := exists_of_isOk
      (show (compile .standard hikes [] Trace.factory (hikesUpToText "3")).isOk = true by decide +kernel)
    obtain ⟨record, typed⟩ := (compile_literals .standard hikes [] Trace.factory _ read_three).1 r hr
    exact ⟨r, record, hr, typed⟩
  · have read_high : read .standard (hikesUpToText "9223372036854775808") = .ok (hikesUpTo "9223372036854775808") :=
      toOption_eq_some.1 (by decide +kernel)
    have none_read : Number.readLong (Text.trim "9223372036854775808").toList = none := by decide +kernel
    refine (compile_literals .standard hikes [] Trace.factory _ read_high).2 (highPlace _) (fun n denoted => ?_)
      fun s resolved => ?_
    · have read_some := Number.readLong_trim.2 denoted
      rw [show (highPlace "9223372036854775808").literal.text = "9223372036854775808" from rfl, none_read]
        at read_some
      cases read_some
    · have target : ((hikesUpTo "9223372036854775808").resolve hikes []).toOption.map (·.target.entity) =
          some "Hike" := by
        decide +kernel
      rw [resolved] at target
      have entity : s.target.entity = "Hike" := Option.some.inj target
      rw [entity]
      decide +kernel

end Engine

end EntitySearch
