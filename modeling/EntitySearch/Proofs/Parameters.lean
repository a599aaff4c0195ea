/-
What the values of parameters can change.

Nothing but the places where they stand. A query is resolved and rendered with its parameters standing for their own
names, which gives a result with places for values (`Statement.resolve_filled`, `ResolvedStatement.render_filled`); what
it compiles to for values of the parameters is that result filled with them, or the fault that is met without any.

`compile_parametric` says so of every text: one outcome serves all maps that bind the same names, the queries are the
records of the conditions as they are written, and names that the query does not mention do not matter.
-/
import EntitySearch.Proofs.Engine
import EntitySearch.Proofs.Render.Outline
import EntitySearch.Proofs.Render.Written

namespace EntitySearch

namespace Parameters

/-- both maps bind the same names -/
def BindsSame (ps bound : Parameters) : Prop := ∀ name, (ps.lookup name).isSome = (bound.lookup name).isSome

/-- a value for every name, that of the map where it has one -/
def Gives (ps : Parameters) (given : String → Value) : Prop :=
  ∀ name value, ps.lookup name = some value → given name = value

/-- each name with itself for a value -/
def names (ps : Parameters) : Parameters := ps.map fun (name, _) => (name, .string name)

theorem lookup_names (ps : Parameters) (name : String) :
    ps.names.lookup name = (ps.lookup name).map fun _ => .string name := by
  induction ps with
  | nil => rfl
  | cons p rest ih =>
    obtain ⟨n, v⟩ := p
    simp only [names, List.map_cons, List.lookup_cons]
    cases h : name == n with
    | true => rw [beq_iff_eq.1 h]; rfl
    | false => exact ih

/-- the map gives a name the value given to it, if the other map binds the name, and nothing otherwise -/
def Reads (ps bound : Parameters) (given : String → Value) (name : String) : Prop :=
  ps.lookup name = (bound.lookup name).map fun _ => given name

theorem reads_of_gives {ps bound : Parameters} {given : String → Value} (same : ps.BindsSame bound)
    (gives : ps.Gives given) (name : String) : ps.Reads bound given name := by
  have bound_too := same name
  cases hp : ps.lookup name with
  | none =>
    rw [hp] at bound_too
    rw [Reads, hp, Option.isSome_eq_false_iff.1 bound_too.symm |> Option.isNone_iff_eq_none.1]
    rfl
  | some v =>
    rw [hp] at bound_too
    obtain ⟨w, hw⟩ := Option.isSome_iff_exists.1 bound_too.symm
    rw [Reads, hp, hw, Option.map_some, gives name v hp]

end Parameters

/-- a condition of the query has the parameter for an operand -/
def Statement.Mentions (q : Statement) (name : String) : Prop :=
  ∃ w, (w ∈ q.filter ∨ w ∈ q.having) ∧ Operand.named name ∈ w.operands

/-- the query with the values given to the names that its parameters have for values -/
def ResolvedStatement.fill (given : String → Value) (s : ResolvedStatement) : ResolvedStatement :=
  { s with
    filter := s.filter.map (Condition.map (ResolvedOperand.fill given))
    having := s.having.map (Condition.map (ResolvedOperand.fill given)) }

section

variable {c : Catalog} {ps bound : Parameters} {given : String → Value}

/-! ## Resolving -/

theorem resolveOperand_filled (s : Scope) (clause : Clause) (o : Operand)
    (h : ∀ name, o = .named name → ps.Reads bound given name) :
    s.resolveOperand c ps clause o = (s.resolveOperand c bound.names clause o).map (ResolvedOperand.fill given) := by
  cases o with
  | path e =>
    cases clause with
    | having => rfl
    | filter =>
      simp only [Scope.resolveOperand]
      cases s.resolveProperty c e <;> rfl
  | aggregate a =>
    cases clause with
    | filter => rfl
    | having =>
      simp only [Scope.resolveOperand]
      cases s.resolveAggregate c a <;> rfl
  | literal l => rfl
  | positional n => rfl
  | named name =>
    have reads := h name rfl
    simp only [Scope.resolveOperand, Parameters.lookup_names, show ps.lookup name = _ from reads]
    cases bound.lookup name <;> rfl

theorem resolveOptional_filled (s : Scope) (clause : Clause) (w : Option (Condition Operand))
    (h : ∀ v ∈ w, ∀ name, Operand.named name ∈ v.operands → ps.Reads bound given name) :
    resolveOptional c ps s clause w =
      (resolveOptional c bound.names s clause w).map (Option.map (Condition.map (ResolvedOperand.fill given))) := by
  cases w with
  | none => rfl
  | some w =>
    have each : ∀ o ∈ w.operands, s.resolveOperand c ps clause o =
        (s.resolveOperand c bound.names clause o).map (ResolvedOperand.fill given) := fun o ho =>
      resolveOperand_filled s clause o fun name named => h w rfl name (named ▸ ho)
    simp only [resolveOptional, Scope.resolveCondition, Condition.traverse_map w each]
    cases w.traverse (s.resolveOperand c bound.names clause) <;> rfl

/-- **Values only fill the conditions** of a query that is resolved with its parameters standing for their names. -/
theorem Statement.resolve_filled (q : Statement) (h : ∀ name, q.Mentions name → ps.Reads bound given name) :
    q.resolve c ps = (q.resolve c bound.names).map (ResolvedStatement.fill given) := by
  have filter (s : Scope) := resolveOptional_filled (c := c) s .filter q.filter fun w hw name named =>
    h name ⟨w, .inl hw, named⟩
  have having (s : Scope) := resolveOptional_filled (c := c) s .having q.having fun w hw name named =>
    h name ⟨w, .inr hw, named⟩
  exact q.resolve_conditions filter having

/-! ## Rendering -/

namespace Render

/-- the form of a condition that may be left out -/
def outlineIfGiven (c : Catalog) (entity : String) (subject : SubjectOf) :
    Option (Condition ResolvedOperand) → Except QueryError Form
  | none => .ok (.matchAll entity)
  | some w => outline (Site.convert ⟨c, entity, Trace.factory⟩) subject entity w

variable {entity : String} {subject : SubjectOf}

theorem queryIfGiven_filled (ignores : IgnoresValues subject) (w : Option (Condition ResolvedOperand)) :
    query ⟨c, entity, Trace.factory⟩ subject (w.map (Condition.map (ResolvedOperand.fill given))) =
      (outlineIfGiven c entity subject w).map (Form.fill given) := by
  cases w with
  | none => rfl
  | some w => exact query_filled given ignores w

theorem having_filled (ignores : IgnoresValues subject) (w : Condition ResolvedOperand) :
    (query ⟨c, entity, Trace.factory⟩ subject (some (w.map (ResolvedOperand.fill given)))).map some =
      ((outlineIfGiven c entity subject (some w)).map some).map (Option.map (Form.fill given)) := by
  rw [query_filled given ignores, outlineIfGiven]
  cases outline (Site.convert ⟨c, entity, Trace.factory⟩) subject entity w <;> rfl

end Render

/-- the result with places for values, of a query whose parameters have their own names for values -/
def ResolvedStatement.outline (c : Catalog) (s : ResolvedStatement) : Except QueryError (QueryResult Form) := do
  let projections ← s.items.mapM (Render.projection s.aliases)
  let query ← Render.outlineIfGiven c s.target.entity (ResolvedOperand.propertySubject s.aliases) s.filter
  let having ←
    match s.having with
    | none => .ok none
    | some h =>
      (Render.outlineIfGiven c s.target.entity (ResolvedOperand.aggregateSubject s.aliases) (some h)).map some
  let sort ← s.orderBy.mapM fun item =>
    (Render.propertyName s.aliases item.path).map fun name => (⟨name, item.ascending⟩ : SortField)
  let groupBy ← s.groupBy.mapM (Render.propertyName s.aliases)
  .ok ⟨query, s.target.entity, s.target.calledBy, projections, sort, groupBy, having, s.distinct⟩

/-- **Values only fill the queries** of a result. -/
theorem ResolvedStatement.render_filled (s : ResolvedStatement) :
    (s.fill given).render c Trace.factory = (s.outline c).map (QueryResult.map (Form.fill given)) := by
  have filter : Render.query ⟨c, s.target.entity, Trace.factory⟩ (ResolvedOperand.propertySubject s.aliases)
      (s.filter.map (Condition.map (ResolvedOperand.fill given))) =
        (Render.outlineIfGiven c s.target.entity (ResolvedOperand.propertySubject s.aliases) s.filter).map
          (Form.fill given) :=
    Render.queryIfGiven_filled (Render.propertySubject_ignoresValues s.aliases) s.filter
  have having (w : Condition ResolvedOperand) : (Render.query ⟨c, s.target.entity, Trace.factory⟩
      (ResolvedOperand.aggregateSubject s.aliases) (some (w.map (ResolvedOperand.fill given)))).map some =
        ((Render.outlineIfGiven c s.target.entity (ResolvedOperand.aggregateSubject s.aliases) (some w)).map some).map
          (Option.map (Form.fill given)) :=
    Render.having_filled (Render.aggregateSubject_ignoresValues s.aliases) w
  simp only [ResolvedStatement.render, ResolvedStatement.outline, ResolvedStatement.fill]
  refine SameOutcome.iff_map.1 ?_
  refine .bind_same _ fun projections => ?_
  refine .bind_map filter fun query => ?_
  cases s.having with
  | none =>
    simp only [Option.map_none, ok_bind]
    refine .bind_same _ fun sort => ?_
    refine .bind_same _ fun groupBy => ?_
    exact .ok rfl
  | some w =>
    simp only [Option.map_some]
    refine .bind_map (having w) fun having => ?_
    refine .bind_same _ fun sort => ?_
    refine .bind_same _ fun groupBy => ?_
    exact .ok rfl

end

/-! ## Compiling -/

namespace Engine

variable (config : Config) (c : Catalog) (text : String)

/-- the outcome of compiling with places for values, for parameters that bind the names that the map binds -/
def outline (bound : Parameters) : Except QueryError (QueryResult Form) := do
  let q ← read config text
  let s ← q.resolve c bound.names
  s.outline c

theorem compile_filled {ps bound : Parameters} {given : String → Value}
    (h : ∀ q name, read config text = .ok q → q.Mentions name → ps.Reads bound given name) :
    compile config c ps Trace.factory text =
      (outline config c text bound).map (QueryResult.map (Form.fill given)) := by
  simp only [compile, outline]
  refine SameOutcome.iff_map.1 ?_
  cases hq : read config text with
  | error e => exact .error e
  | ok q =>
    simp only [ok_bind]
    refine .bind_map (q.resolve_filled fun name => h q name hq) fun s => ?_
    exact SameOutcome.iff_map.2 s.render_filled

/-- **The values of parameters cannot change the structure of a query.**

There is one outcome for all maps that bind the same names: a fault, or a result in which only the places of values may
be left open, and each map gives that result with its own values put in. The queries are the records of the conditions
as they are written, where a named parameter stands for its value. And what a map binds beside the names that the query
mentions has no effect. -/
theorem compile_parametric :
    (∀ bound : Parameters, ∃ outcome : Except QueryError (QueryResult Form),
      ∀ ps given, Parameters.BindsSame ps bound → Parameters.Gives ps given →
        compile config c ps Trace.factory text = outcome.map (QueryResult.map (Form.fill given))) ∧
    (∀ ps r, compile config c ps Trace.factory text = .ok r →
      ∃ q, read config text = .ok q ∧ r.Records c ps q) ∧
    ∀ ps ps' : Parameters,
      (∀ q name, read config text = .ok q → q.Mentions name → ps.lookup name = ps'.lookup name) →
        ∀ {Q : Type} (f : Factory Q), compile config c ps f text = compile config c ps' f text := by
  refine ⟨fun bound => ⟨outline config c text bound, fun ps given same gives => ?_⟩, fun ps r hr => ?_,
    fun ps ps' same Q f => ?_⟩
  · exact compile_filled config c text fun _ name _ _ => Parameters.reads_of_gives same gives name
  · simp only [compile, bind_eq_ok] at hr
    obtain ⟨q, hq, s, hs, hr⟩ := hr
    exact ⟨q, hq, render_resolve_records hs hr⟩
  · -- both maps fill the outcome for the names of the first with the values of the first
    let given : String → Value := fun name => (ps.lookup name).getD (.string "")
    have first (name : String) : ps.Reads ps given name := by
      cases hp : ps.lookup name <;> simp [Parameters.Reads, given, hp]
    rw [compile_replay, compile_replay config c ps', compile_filled config c text fun _ name _ _ => first name,
      compile_filled config c text fun q name hq mentioned => (same q name hq mentioned).symm.trans (first name)]

/-- a parameter beside a property, in a pattern and beside an aggregate -/
def lowHikes : String :=
  "SELECT difficulty FROM Hike h JOIN h.start s WHERE :low < difficulty AND NOT s.altitude LIKE :low " ++
    "GROUP BY difficulty HAVING count(difficulty) IN (:low, '2')"

/-- A number and a text that looks like a condition are put into the same places of one query, and it does not matter
what a name is bound to that is not mentioned. -/
theorem compile_lowHikes_parametric : ∃ form : QueryResult Form,
    compile .standard hikes [("low", .long 3)] Trace.factory lowHikes =
        .ok (form.map (Form.fill fun _ => .long 3)) ∧
      compile .standard hikes [("low", .string "0 OR true")] Trace.factory lowHikes =
        .ok (form.map (Form.fill fun _ => .string "0 OR true")) ∧
      compile .standard hikes [("low", .long 3), ("high", .long 9)] Trace.factory lowHikes =
        compile .standard hikes [("low", .long 3)] Trace.factory lowHikes := by
  obtain ⟨one, -, unmentioned⟩ := compile_parametric .standard hikes lowHikes
  obtain ⟨outcome, filled⟩ := one [("low", .long 3)]
  have binds (v : Value) : Parameters.BindsSame [("low", v)] [("low", .long 3)] := fun name => by
    cases h : name == "low" <;> simp [List.lookup_cons, h]
  have gives (v : Value) : Parameters.Gives [("low", v)] fun _ => v := fun name value h => by
    cases hn : name == "low" <;> simp_all [List.lookup_cons]
  have number := filled _ _ (binds (.long 3)) (gives _)
  have text := filled _ _ (binds (.string "0 OR true")) (gives _)
  obtain ⟨r, hr⟩ := exists_of_isOk (show
    (compile .standard hikes [("low", .long 3)] Trace.factory lowHikes).isOk = true by decide +kernel)
  obtain ⟨form, rfl, -⟩ := map_eq_ok.1 (number.symm.trans hr)
  have quiet : ((read .standard lowHikes).toOption.all fun q =>
      (q.filter.toList ++ q.having.toList).all fun w => !w.operands.contains (.named "high")) = true := by
    decide +kernel
  refine ⟨form, number, text, unmentioned _ _ (fun q name hq mentioned => ?_) _⟩
  obtain ⟨w, hw, named⟩ := mentioned
  have silent : Operand.named "high" ∉ w.operands := by
    simp only [hq, Except.toOption, Option.all_some, List.all_eq_true] at quiet
    simpa using quiet w (by simpa using hw)
  have other : (name == "high") = false := beq_eq_false_iff_ne.2 fun same => silent (same ▸ named)
  cases h : name == "low" <;> simp [List.lookup_cons, h, other]

end Engine

end EntitySearch
