/-
A parameter is as good as its text.

`Statement.inline` writes a text into a query, as a literal, wherever a parameter stands. The text of a parameter is
converted before names are resolved, to the type of the property that the command line takes the parameter to be
compared with; that of a literal is converted when the query is rendered, to the type of what it is compared with. A
parameter that is compared with one property (`Statement.ComparesOnly`) is typed by that property, if the query resolves
at all (`lookup_compared`), so both come to the same value, or to none.

`compile_inline`: the command line makes of the query with the parameter what it makes of the query with the text.
-/
import EntitySearch.Engine
import EntitySearch.Proofs.CommandLine.Values
import EntitySearch.Proofs.Render.Replay
import EntitySearch.Proofs.Render.Substitution

namespace EntitySearch

/-! ## A text in the place of a parameter -/

def Operand.inline (p t : String) : Operand → Operand
  | .named name => if name = p then .literal (.string t) else .named name
  | o => o

def ResolvedOperand.inline (p t : String) : ResolvedOperand → ResolvedOperand
  | .parameter name v => if name = p then .literal t else .parameter name v
  | o => o

/-- the query with a text, as a literal, wherever a parameter stands -/
def Statement.inline (p t : String) (q : Statement) : Statement :=
  { q with
    filter := q.filter.map (Condition.map (Operand.inline p t))
    having := q.having.map (Condition.map (Operand.inline p t)) }

/-- The parameter is only compared, in WHERE, and always with one property. -/
structure Statement.ComparesOnly (q : Statement) (p : String) (names : List String) : Prop where
  value : ∀ w ∈ q.filter, w.OnlyAsValue (.named p)
  property : ∀ w ∈ q.filter, ∀ o, (o, .named p) ∈ w.compared →
    ∃ e, o = .path e ∧ q.naming.expand e.segments = names
  absent : ∀ w ∈ q.having, .named p ∉ w.operands

theorem Statement.ComparesOnly.names_eq {q : Statement} {p : String} {names : List String}
    (only : q.ComparesOnly p names) {w : Condition Operand} (hw : w ∈ q.filter) {e : PathExpr}
    (compared : (.path e, .named p) ∈ w.compared) : q.naming.expand e.segments = names := by
  obtain ⟨e', same, hnames⟩ := only.property w hw _ compared
  cases same
  exact hnames

theorem Operand.inline_self (p t : String) : (Operand.named p).inline p t = .literal (.string t) := if_pos rfl

namespace Condition

mutual

theorem depth_map {α β : Type} (g : α → β) : ∀ c : Condition α, (c.map g).depth = c.depth
  | .and cs => by rw [map, depth, depth, depths_mapAll g cs]
  | .or cs => by rw [map, depth, depth, depths_mapAll g cs]
  | .not c => by rw [map, depth, depth, depth_map g c]
  | .compare .. => rfl
  | .between .. => rfl
  | .among .. => rfl
  | .like .. => rfl
  | .isNull .. => rfl

theorem depths_mapAll {α β : Type} (g : α → β) : ∀ cs : List (Condition α), depths (mapAll g cs) = depths cs
  | [] => rfl
  | c :: rest => by rw [mapAll, depths, depths, depth_map g c, depths_mapAll g rest]

end

end Condition

theorem Statement.depth_inline (p t : String) (q : Statement) : (q.inline p t).depth = q.depth := by
  have same (w : Option (Condition Operand)) :
      (w.map (Condition.map (Operand.inline p t))).map Condition.depth = w.map Condition.depth := by
    cases w with
    | none => rfl
    | some w => exact congrArg some (Condition.depth_map _ w)
  simp only [Statement.depth, Statement.inline, same]

section

variable {c : Catalog} {q : Statement} {p t : String} {names : List String} {v : Value} {ps ps' : Parameters}
  {s : ResolvedStatement}

/-! ## Resolving and rendering -/

theorem resolveOperand_inline (alike : CommandLine.AlikeBut p (some v) ps ps') (s : Scope) (clause : Clause)
    (o : Operand) :
    s.resolveOperand c ps' clause (o.inline p t) =
      (s.resolveOperand c ps clause o).map (ResolvedOperand.inline p t) := by
  cases o with
  | path e =>
    cases clause with
    | having => rfl
    | filter =>
      simp only [Operand.inline, Scope.resolveOperand]
      cases s.resolveProperty c e <;> rfl
  | aggregate a =>
    cases clause with
    | filter => rfl
    | having =>
      simp only [Operand.inline, Scope.resolveOperand]
      cases s.resolveAggregate c a <;> rfl
  | literal l => rfl
  | positional n => rfl
  | named name =>
    by_cases same : name = p
    · subst same
      simp [Operand.inline, Scope.resolveOperand, alike.own, Except.map, ResolvedOperand.inline, Literal.text]
    · simp only [Operand.inline, if_neg same, Scope.resolveOperand, ← alike.others name same]
      cases ps.lookup name <;> simp [Except.map, ResolvedOperand.inline, same]

/-- a query with the text resolves as the one with the parameter does -/
theorem Statement.resolve_inline (alike : CommandLine.AlikeBut p (some v) ps ps') :
    (q.inline p t).resolve c ps' = (q.resolve c ps).map (ResolvedStatement.mapOperands (ResolvedOperand.inline p t)) :=
  q.resolve_conditions
    (fun s => resolveOptional_map q.filter fun _ _ o _ => resolveOperand_inline alike s .filter o)
    (fun s => resolveOptional_map q.having fun _ _ o _ => resolveOperand_inline alike s .having o)

theorem Statement.inline_replaces (alike : CommandLine.AlikeBut p (some v) ps ps') (convert : Conversion) :
    Condition.Replaces (q.sense ps convert) ((q.inline p t).sense ps' convert) (Operand.inline p t) (.named p) where
  convert := rfl
  side o other := by
    cases o with
    | named name =>
      have different : name ≠ p := fun same => other (congrArg Operand.named same)
      simp [Statement.sense, Operand.inline, different, Operand.reference, Operand.given, alike.others name different]
    | _ => rfl
  subject := by simp [Sense.subject, Statement.sense, Operand.reference, Operand.given, alike.own]
  subject' := by simp [Sense.subject, Statement.sense, Operand.inline_self, Operand.reference, Operand.given]

/-- the text is worth the value of the parameter, if it is converted to that for the property -/
theorem Statement.ComparesOnly.worth (only : q.ComparesOnly p names)
    (alike : CommandLine.AlikeBut p (some v) ps ps') {w : Condition Operand} (hw : w ∈ q.filter) {entity : String}
    (converts : ∀ o, (o, .named p) ∈ w.compared → c.convert entity names t = .ok v) :
    Condition.Replaces.Worth (q.sense ps (Site.convert ⟨c, entity, Trace.factory⟩))
      ((q.inline p t).sense ps' (Site.convert ⟨c, entity, Trace.factory⟩)) (Operand.inline p t) (.named p)
      w.compared := by
  intro o subject compared hsubject
  obtain ⟨e, rfl, hnames⟩ := only.property w hw o compared
  cases hsubject
  simp [Sense.value, Sense.comparand, Statement.sense, Operand.inline_self, Operand.reference, Operand.given, alike.own,
    Site.convert, Site.convertLiteral, Literal.text, hnames, converts _ compared]

/-- **A query with the text is rendered as the one with the parameter is**, if the parameter stands for nothing but
values, and the text is worth the same there. -/
theorem render_worth {Q : Type} {f : Factory Q} (alike : CommandLine.AlikeBut p (some v) ps ps')
    (resolved : q.resolve c ps = .ok s) (value : ∀ w, w ∈ q.filter ∨ w ∈ q.having → w.OnlyAsValue (.named p))
    (worth : ∀ w, w ∈ q.filter ∨ w ∈ q.having →
      Condition.Replaces.Worth (q.sense ps (Site.convert ⟨c, s.target.entity, Trace.factory⟩))
        ((q.inline p t).sense ps' (Site.convert ⟨c, s.target.entity, Trace.factory⟩)) (Operand.inline p t) (.named p)
        w.compared) :
    ((s.mapOperands (ResolvedOperand.inline p t)).render c f).toOption = (s.render c f).toOption := by
  have resolved' : (q.inline p t).resolve c ps' = .ok (s.mapOperands (ResolvedOperand.inline p t)) := by
    rw [Statement.resolve_inline alike, resolved]
    rfl
  have resolves := Statement.resolve_ok resolved
  have resolves' := Statement.resolve_ok resolved'
  have replaces := Statement.inline_replaces (q := q) (t := t) alike
    (Site.convert ⟨c, s.target.entity, Trace.factory⟩)
  have filtered := query_written resolves' resolves'.filter
  have grouped := query_written resolves' resolves'.having
  rw [ResolvedStatement.render_replay, ResolvedStatement.render_replay c f s, toOption_map, toOption_map]
  congr 1
  refine s.render_conditions ?_ ?_
  · rw [query_written resolves resolves.filter]
    exact filtered.trans (Condition.recordIfGiven_replaced replaces _ _ (fun w hw => value w (.inl hw)) fun w hw =>
      worth w (.inl hw))
  · have unchanged := Condition.recordIfGiven_replaced replaces s.target.entity q.having
      (fun w hw => value w (.inr hw)) (fun w hw => worth w (.inr hw))
    have same := grouped.trans (unchanged.trans (query_written resolves resolves.having).symm)
    simp only [ResolvedStatement.mapOperands] at same
    revert same
    cases s.having with
    | none => exact fun _ => .none
    | some d => exact fun same => .some same

theorem render_inline {Q : Type} {f : Factory Q} (only : q.ComparesOnly p names)
    (alike : CommandLine.AlikeBut p (some v) ps ps') (resolved : q.resolve c ps = .ok s)
    (converts : ∀ w ∈ q.filter, ∀ o, (o, .named p) ∈ w.compared → c.convert s.target.entity names t = .ok v) :
    ((s.mapOperands (ResolvedOperand.inline p t)).render c f).toOption = (s.render c f).toOption := by
  refine render_worth alike resolved ?_ ?_
  · rintro w (hw | hw)
    · exact only.value w hw
    · exact Condition.onlyAsValue_of_not_mem w (only.absent w hw)
  · rintro w (hw | hw)
    · exact only.worth alike hw (converts w hw)
    · intro o _ compared
      exact absurd (Condition.compared_operands w compared).2 (only.absent w hw)

end

namespace CommandLine

/-! ## What parameters are compared with -/

mutual

theorem comparisons_map (g : Operand → Operand) : ∀ w : Condition Operand,
    comparisons (w.map g) = (comparisons w).map (Prod.map g (List.map g))
  | .and cs => comparisonsFromLast_mapAll g cs
  | .or cs => comparisonsFromLast_mapAll g cs
  | .not w => comparisons_map g w
  | .compare .. => rfl
  | .between .. => rfl
  | .among .. => rfl
  | .like .. => rfl
  | .isNull .. => rfl

theorem comparisonsFromLast_mapAll (g : Operand → Operand) : ∀ ws : List (Condition Operand),
    comparisonsFromLast (Condition.mapAll g ws) = (comparisonsFromLast ws).map (Prod.map g (List.map g))
  | [] => rfl
  | w :: rest => by
    rw [Condition.mapAll, comparisonsFromLast, comparisonsFromLast, comparisons_map g w,
      comparisonsFromLast_mapAll g rest, List.map_append]

end

section

variable {q : Statement} {p t : String}

theorem parameterNames_inline (p t : String) (operands : List Operand) :
    parameterNames (operands.map (Operand.inline p t)) = (parameterNames operands).filter (· ≠ p) := by
  induction operands with
  | nil => rfl
  | cons o rest ih =>
    unfold parameterNames at ih ⊢
    cases o with
    | named name =>
      by_cases same : name = p
      · simp [Operand.inline, same, ih]
      · simp [Operand.inline, same, ih]
    | _ => simp [Operand.inline, ih]

theorem comparedWith_inline (roots : List String) (joins : NamedPaths) (x : Operand × List Operand) :
    comparedWith roots joins (x.map (Operand.inline p t) (List.map (Operand.inline p t))) =
      (comparedWith roots joins x).filter (·.1 ≠ p) := by
  obtain ⟨o, others⟩ := x
  cases o with
  | path e =>
    simp only [Prod.map_apply, Operand.inline, comparedWith, parameterNames_inline]
    cases belowTarget roots joins e.segments with
    | none => rfl
    | some path => rw [List.filter_map]; rfl
  | named name =>
    by_cases same : name = p
    · simp [Operand.inline, same, comparedWith]
    · simp [Operand.inline, same, comparedWith]
  | _ => rfl

theorem comparedPaths_inline : comparedPaths (q.inline p t) = (comparedPaths q).filter (·.1 ≠ p) := by
  unfold comparedPaths Statement.inline
  cases q.filter with
  | none => rfl
  | some w =>
    simp only [Option.map_some, comparisons_map, List.flatMap_map, comparedWith_inline, List.filter_flatMap]
    rfl

/-- **What other parameters are typed by stays.** -/
theorem lookup_inline {name : String} (other : name ≠ p) :
    (parameterPaths q).lookup name = (parameterPaths (q.inline p t)).lookup name := by
  rw [parameterPaths_eq, parameterPaths_eq, lookup_firstOnly, lookup_firstOnly, comparedPaths_inline,
    lookup_filter other]

end

section

variable {c : Catalog} {q : Statement} {p t : String} {names : List String} {ps : Parameters} {s : ResolvedStatement}

/-- for the command line, all that the parameter is compared with leads to one property -/
def LeadsTo (q : Statement) (p : String) (names : List String) : Prop :=
  ∀ w ∈ q.filter, ∀ e, (.path e, .named p) ∈ w.compared →
    belowTarget (roots q) (joinPaths (roots q) q.joins) e.segments = some names

theorem leadsTo (only : q.ComparesOnly p names) (resolved : q.resolve c ps = .ok s) : LeadsTo q p names := by
  intro w hw e compared
  rw [(reference_compared resolved hw compared).1, only.names_eq hw compared]

/-- what a parameter was compared with, the text is compared with -/
theorem compared_inline {w : Condition Operand} {o : Operand} (compared : (o, .named p) ∈ w.compared) :
    (o.inline p t, .literal (.string t)) ∈ (w.map (Operand.inline p t)).compared := by
  rw [Condition.compared_map]
  refine List.mem_map.2 ⟨_, compared, ?_⟩
  rw [Prod.map_apply, Operand.inline_self]

theorem filter_inline {w : Condition Operand} (hw : w ∈ q.filter) :
    w.map (Operand.inline p t) ∈ (q.inline p t).filter := by
  rw [Option.mem_def] at hw ⊢
  simp only [Statement.inline, hw, Option.map_some]

theorem having_inline {w : Condition Operand} (hw : w ∈ q.having) :
    w.map (Operand.inline p t) ∈ (q.inline p t).having := by
  rw [Option.mem_def] at hw ⊢
  simp only [Statement.inline, hw, Option.map_some]

/-- it is enough that the query with the text resolves -/
theorem leadsTo_inline (only : q.ComparesOnly p names) (resolved : (q.inline p t).resolve c ps = .ok s) :
    LeadsTo q p names := by
  intro w hw e compared
  rw [← only.names_eq hw compared]
  exact (reference_compared resolved (filter_inline hw) (compared_inline compared)).1

/-- the parameter is typed by the property to which all that it is compared with leads -/
theorem eq_of_lookup (leads : LeadsTo q p names) {path : List String}
    (typed : (parameterPaths q).lookup p = some path) :
    path = names ∧ ∃ w ∈ q.filter, ∃ e, (.path e, .named p) ∈ w.compared := by
  rw [parameterPaths_eq, lookup_firstOnly] at typed
  obtain ⟨w, hw, e, compared, below⟩ := mem_comparedPaths.1 (mem_of_lookup typed)
  rw [leads w hw e compared] at below
  exact ⟨(Option.some.inj below).symm, w, hw, e, compared⟩

theorem lookup_compared (leads : LeadsTo q p names) {w : Condition Operand} (hw : w ∈ q.filter) {e : PathExpr}
    (compared : (.path e, .named p) ∈ w.compared) : (parameterPaths q).lookup p = some names := by
  have listed : (p, names) ∈ comparedPaths q := mem_comparedPaths.2 ⟨w, hw, e, compared, leads w hw e compared⟩
  cases typed : (parameterPaths q).lookup p with
  | none =>
    rw [parameterPaths_eq, lookup_firstOnly, List.lookup_eq_none_iff] at typed
    simpa using typed _ listed
  | some path => rw [(eq_of_lookup leads typed).1]

/-! ## The value of the parameter and of the text -/

/-- a value that is found is that of the property -/
theorem convert_of_typed (only : q.ComparesOnly p names) (resolved : q.resolve c ps = .ok s) {v : Value}
    (typed : typedValue c (targetEntity c q) (parameterPaths q) p t = .ok v) :
    ∀ w ∈ q.filter, ∀ o, (o, .named p) ∈ w.compared → c.convert s.target.entity names t = .ok v := by
  intro w hw o compared
  obtain ⟨e, rfl, hnames⟩ := only.property w hw o compared
  have target := lookup_compared (leadsTo only resolved) hw compared
  have present : c.hasProperty s.target.entity names = true := hnames ▸ (reference_compared resolved hw compared).2
  simp only [typedValue, targetEntity_eq resolved, target, present, if_true] at typed
  cases converted : c.convert s.target.entity names t with
  | error e =>
    rw [converted] at typed
    cases typed
  | ok v' =>
    rw [converted] at typed
    cases typed
    rfl

/-- only a conversion fails -/
theorem convert_of_refused {entity : Option String} {targets : NamedPaths} {e : ParameterError}
    (refused : typedValue c entity targets p t = .error e) :
    ∃ target path, entity = some target ∧ targets.lookup p = some path ∧ ∀ v, c.convert target path t ≠ .ok v := by
  unfold typedValue at refused
  split at refused
  · rename_i target path hpath
    refine ⟨target, path, rfl, hpath, ?_⟩
    intro v converted
    rw [converted] at refused
    split at refused <;> cases refused
  · cases refused

/-- where there is a result, the text is a value of the property -/
theorem convert_of_rendered {Q : Type} {f : Factory Q} {r : QueryResult Q} (only : q.ComparesOnly p names)
    (resolved : (q.inline p t).resolve c ps = .ok s) (rendered : s.render c f = .ok r) {w : Condition Operand}
    (hw : w ∈ q.filter) {e : PathExpr} (compared : (.path e, .named p) ∈ w.compared) :
    ∃ v, c.convert s.target.entity names t = .ok v := by
  rw [ResolvedStatement.render_replay] at rendered
  obtain ⟨record, hrecord, -⟩ := map_eq_ok.1 rendered
  have recorded := (render_resolve_records resolved hrecord).query
  rw [(ResolvedStatement.render_ok hrecord).entity, Option.mem_def.1 (filter_inline hw)] at recorded
  obtain ⟨v, hv⟩ := Condition.record_value (s := ⟨none, q.naming.expand e.segments⟩) rfl rfl _ recorded
    (compared_inline compared)
  simp only [Sense.value, Sense.comparand, Statement.sense, Operand.reference, Operand.given, Site.convert,
    Site.convertLiteral, Literal.text, only.names_eq hw compared, Option.map_some, Option.bind_some] at hv
  cases converted : c.convert s.target.entity names t with
  | ok v' => exact ⟨v', rfl⟩
  | error e =>
    rw [converted] at hv
    cases hv

/-- **A text that is no value for the command line is none in the query**: the query with the text fails. -/
theorem inline_fails {Q : Type} {f : Factory Q} (only : q.ComparesOnly p names) {e : ParameterError}
    (refused : typedValue c (targetEntity c q) (parameterPaths q) p t = .error e) (r : QueryResult Q) :
    ((q.inline p t).resolve c ps >>= fun s => s.render c f) ≠ .ok r := by
  intro compiled
  obtain ⟨s, resolved, rendered⟩ := bind_eq_ok.1 compiled
  obtain ⟨target, path, htarget, hpath, unfit⟩ := convert_of_refused refused
  obtain ⟨rfl, w, hw, x, compared⟩ := eq_of_lookup (leadsTo_inline only resolved) hpath
  obtain rfl : s.target.entity = target := Option.some.inj ((targetEntity_eq resolved).symm.trans htarget)
  obtain ⟨v, converted⟩ := convert_of_rendered only resolved rendered hw compared
  exact unfit v converted

end

/-! ## The command line -/

section

variable {Q : Type} (config : Config) (c : Catalog) (f : Factory Q)

/-- what a query is compiled to, with the values that options give to its parameters -/
def compiled (q : Statement) (params : List String) : Option (QueryResult Q) :=
  (typedParameters c q params).toOption.bind fun ps => (q.resolve c ps >>= fun s => s.render c f).toOption

/-- what a text is compiled to, with the values that options give to its parameters -/
def compiledText (text : String) (params : List String) : Option (QueryResult Q) :=
  (parameterValues c text params).toOption.bind fun ps => (Engine.compile config c ps f text).toOption

theorem read_toOption {text : String} {q : Statement} (hq : Query.parse text = .ok q) :
    (Engine.read config text).toOption =
      if config.maxQueryLength < Text.byteLength text.toList ∨ config.maxExpressionDepth < q.depth then none
      else some q := by
  unfold Engine.read
  by_cases long : config.maxQueryLength < Text.byteLength text.toList
  · simp [long, Except.toOption]
  · by_cases deep : config.maxExpressionDepth < q.depth
    · simp [long, hq, deep, Except.toOption]
    · simp [long, hq, deep, Except.toOption]

/-- a text is compiled as the query that it is read as, within the limits -/
theorem compiledText_eq {text : String} {q : Statement} (hq : Query.parse text = .ok q) (params : List String) :
    compiledText config c f text params =
      if config.maxQueryLength < Text.byteLength text.toList ∨ config.maxExpressionDepth < q.depth then none
      else compiled c f q params := by
  rw [compiledText, parameterValues_eq hq, compiled]
  simp only [Engine.compile, toOption_bind, read_toOption config hq]
  split
  · simp
  · simp

variable {c f} {q : Statement} {p t : String} {names before after : List String}

/-- **A parameter is as good as its text.** A query gives with an option for a parameter what it gives with the text of
the option in its place, or fails with both. So do the texts of both queries, unless one is too long and the other is
not. -/
theorem compile_inline (name : Query.isParameterName p = true) (only : q.ComparesOnly p names)
    (spares : ∀ text ∈ before ++ after, Spares p text) :
    compiled c f q (before ++ assignment p t :: after) = compiled c f (q.inline p t) (before ++ after) ∧
    ∀ written inlined : String, Query.parse written = .ok q → Query.parse inlined = .ok (q.inline p t) →
      (config.maxQueryLength < Text.byteLength written.toList ↔
        config.maxQueryLength < Text.byteLength inlined.toList) →
      compiledText config c f written (before ++ assignment p t :: after) =
        compiledText config c f inlined (before ++ after) := by
  have same : compiled c f q (before ++ assignment p t :: after) = compiled c f (q.inline p t) (before ++ after) := by
    unfold compiled
    cases typed : typedValue c (targetEntity c q) (parameterPaths q) p t with
    | error e =>
      rw [typedParameters, values_refused name typed, Option.bind_none]
      simp only [toOption_eq_none (inline_fails only typed), Option.bind_fun_none]
    | ok v =>
      have values := values_without (fun x other => lookup_inline (t := t) other) name spares typed
      refine values.toOption_bind fun ps ps' alike => ?_
      rw [Statement.resolve_inline alike]
      cases resolved : q.resolve c ps with
      | error e => rfl
      | ok s => exact (render_inline only alike resolved (convert_of_typed only resolved typed)).symm
  refine ⟨same, ?_⟩
  intro written inlined hwritten hinlined fits
  rw [compiledText_eq config c f hwritten, compiledText_eq config c f hinlined, same, Statement.depth_inline]
  simp only [fits]

/-- hikes that start around an altitude, which is compared with their start twice, by two names of it -/
def startsAround : Statement where
  select := none
  sources := [⟨"Hike", some "h"⟩]
  joins := [⟨false, false, ⟨["h", "start"], none⟩, "s"⟩]
  filter := some (.or
    [.between (.path ⟨["s", "altitude"], none⟩) (.named "low") (.literal (.number "900")) false,
      .not (.among (.path ⟨["start", "altitude"], none⟩) [.literal (.number "3"), .named "low"] false)])
  groupBy := none
  having := none
  orderBy := none

/-- the text of the query, with something in the place of its parameter -/
def startsAroundText (low : String) : String :=
  "FROM Hike h JOIN h.start s WHERE s.altitude BETWEEN " ++ low ++ " AND 900 " ++
    "OR NOT start.altitude IN (3, " ++ low ++ ")"

theorem startsAround_comparesOnly : startsAround.ComparesOnly "low" ["start", "altitude"] where
  value := by
    rintro w ⟨⟩
    simp [Condition.OnlyAsValue, Condition.OnlyAsValues]
  property := by
    rintro w ⟨⟩ o compared
    have twice : o = .path ⟨["s", "altitude"], none⟩ ∨ o = .path ⟨["start", "altitude"], none⟩ := by
      simpa [Condition.compared, Condition.comparedIn] using compared
    rcases twice with rfl | rfl
    · exact ⟨_, rfl, by decide⟩
    · exact ⟨_, rfl, by decide⟩
  absent := by
    rintro w ⟨⟩

/-- The altitude is given as an option, beside another one, and written into the query, with spaces around it. -/
theorem startsAround_inlined : ∃ r,
    compiled hikes Trace.factory startsAround (["high=9"] ++ [assignment "low" " 300 "]) = some r ∧
    compiled hikes Trace.factory (startsAround.inline "low" " 300 ") ["high=9"] = some r ∧
    compiledText .standard hikes Trace.factory (startsAroundText ":low") ["high=9", assignment "low" " 300 "] =
      compiledText .standard hikes Trace.factory (startsAroundText "' 300 '") ["high=9"] := by
  have spares : ∀ text ∈ ["high=9"] ++ [], Spares "low" text := by
    intro text ht value
    obtain rfl : text = "high=9" := by simpa using ht
    have split : splitParameter "high=9" = .ok ("high", "9") := by decide +kernel
    rw [split]
    simp
  obtain ⟨same, texts⟩ := compile_inline .standard (c := hikes) (f := Trace.factory) (t := " 300 ") (by decide)
    startsAround_comparesOnly spares
  obtain ⟨r, hr⟩ := Option.isSome_iff_exists.1 (show (compiled hikes Trace.factory startsAround
    (["high=9"] ++ [assignment "low" " 300 "])).isSome = true by decide +kernel)
  refine ⟨r, hr, same.symm.trans hr, ?_⟩
  exact texts (startsAroundText ":low") (startsAroundText "' 300 '") (by decide +kernel) (by decide +kernel)
    (by decide +kernel)

end

end CommandLine

end EntitySearch
