/-
A parameter in HAVING keeps its text.

A literal beside an aggregate is converted to the kind that belongs there: a whole number beside a count, a double
beside an average, a value of the property's own kind beside a sum, a least or a greatest value. A parameter is used as
it is given, and the command line looks for the properties that type parameters in WHERE only. So an option for a
parameter that is compared with an aggregate (`Statement.ThresholdOnly`) gives a text, whatever the aggregate is
(`typedValue_threshold`).

`compile_threshold`: the query with the parameter compiles whenever the query with the text does, and both compile to
the same result exactly if texts belong beside the aggregate. Only numbers belong beside a count or an average, so a
threshold for one of these never comes out the same both ways.
-/
import EntitySearch.Proofs.CommandLine.Inlining
import EntitySearch.Proofs.Parameters
import EntitySearch.Proofs.Render.Conversion
import EntitySearch.Proofs.Render.Values

namespace EntitySearch

/-! ## A parameter beside an aggregate -/

/-- The parameter is only compared, in HAVING, and always with one aggregate. -/
structure Statement.ThresholdOnly (q : Statement) (p : String) (s : Subject) : Prop where
  absent : ∀ w ∈ q.filter, .named p ∉ w.operands
  value : ∀ w ∈ q.having, w.OnlyAsValue (.named p)
  aggregate : ∀ w ∈ q.having, ∀ o, (o, .named p) ∈ w.compared →
    ∃ a, o = .aggregate a ∧ s = ⟨some (.of a.function a.distinct), q.naming.expand a.path.segments⟩
  present : ∃ w ∈ q.having, .named p ∈ w.operands

section

variable {c : Catalog} {q : Statement} {p t : String} {s : Subject} {v : Value} {ps ps' : Parameters}
  {r : ResolvedStatement}

theorem Statement.ThresholdOnly.subject (only : q.ThresholdOnly p s) {w : Condition Operand} (hw : w ∈ q.having)
    {o : Operand} (compared : (o, .named p) ∈ w.compared) (parameters : Parameters) (convert : Conversion) :
    (q.sense parameters convert).subject o = some s := by
  obtain ⟨a, rfl, rfl⟩ := only.aggregate w hw o compared
  rfl

/-- the parameter is compared with the aggregate somewhere -/
theorem Statement.ThresholdOnly.compared (only : q.ThresholdOnly p s) :
    ∃ w ∈ q.having, ∃ a, (.aggregate a, .named p) ∈ w.compared := by
  obtain ⟨w, hw, there⟩ := only.present
  obtain ⟨o, compared⟩ := Condition.compared_of_onlyAsValue w (only.value w hw) there
  obtain ⟨a, rfl, -⟩ := only.aggregate w hw o compared
  exact ⟨w, hw, a, compared⟩

/-- beside any subject, a parameter is worth what it is bound to -/
theorem Statement.sense_named (q : Statement) (parameters : Parameters) (site : Site Trace) (s : Subject)
    (name : String) : (q.sense parameters site.convert).value s (.named name) = parameters.lookup name := by
  cases found : parameters.lookup name <;>
    simp [Sense.value, Sense.comparand, Statement.sense, Operand.reference, Operand.given, found, Site.convert,
      Except.toOption]

/-- a literal is worth what it is converted to beside a subject -/
theorem Statement.sense_literal (q : Statement) (parameters : Parameters) (site : Site Trace) (s : Subject)
    (l : Literal) :
    (q.sense parameters site.convert).value s (.literal l) = (site.convert s (.literal l.text)).toOption := rfl

/-- parameters are no subjects -/
theorem Statement.sense_subject (q : Statement) (ps ps' : Parameters) (convert : Conversion) (o : Operand) :
    (q.sense ps convert).subject o = (q.sense ps' convert).subject o := by
  cases o with
  | named name =>
    cases found : ps.lookup name <;> cases found' : ps'.lookup name <;>
      simp [Sense.subject, Statement.sense, Operand.reference, Operand.given, found, found']
  | _ => rfl

/-- a parameter shows in nothing but its own value -/
theorem Statement.beside_alike (q : Statement) {bound : Parameters} {v' : Value}
    (alike : CommandLine.AlikeBut p (some v) ps bound) (alike' : CommandLine.AlikeBut p (some v') ps' bound)
    (site : Site Trace) {pair : Operand × Operand} (other : pair.2 ≠ .named p) :
    (q.sense ps site.convert).beside pair = (q.sense ps' site.convert).beside pair := by
  obtain ⟨o, x⟩ := pair
  rw [Sense.beside, Sense.beside, q.sense_subject ps ps']
  refine Option.bind_congr fun s _ => ?_
  cases x with
  | named name =>
    have different : name ≠ p := fun same => other (congrArg Operand.named same)
    rw [Statement.sense_named, Statement.sense_named, alike.others name different, alike'.others name different]
  | _ => rfl

/-! ## Results -/

/-- **A query with the text is rendered as the one with the parameter is**, if the aggregate converts the text to the
value. -/
theorem render_threshold {Q : Type} {f : Factory Q} (only : q.ThresholdOnly p s)
    (alike : CommandLine.AlikeBut p (some v) ps ps') (resolved : q.resolve c ps = .ok r)
    (converts : Site.convert ⟨c, r.target.entity, Trace.factory⟩ s (.literal t) = .ok v) :
    ((r.mapOperands (ResolvedOperand.inline p t)).render c f).toOption = (r.render c f).toOption := by
  refine render_worth alike resolved ?_ ?_
  · rintro w (hw | hw)
    · exact Condition.onlyAsValue_of_not_mem w (only.absent w hw)
    · exact only.value w hw
  · rintro w (hw | hw) o subject compared hsubject
    · exact absurd (Condition.compared_operands w compared).2 (only.absent w hw)
    · cases (only.subject hw compared _ _).symm.trans hsubject
      rw [Operand.inline_self, Statement.sense_named, Statement.sense_literal, alike.own]
      exact congrArg Except.toOption converts

/-- the HAVING query of a result is the record of what is written in HAVING -/
theorem QueryResult.Records.grouped {result : QueryResult Trace} (records : result.Records c ps q)
    {w : Condition Operand} (hw : w ∈ q.having) :
    ∃ record ∈ result.having,
      w.record (q.sense ps (Site.convert ⟨c, result.entity, Trace.factory⟩)) result.entity = some record := by
  have having := records.having
  rw [Option.mem_def.1 hw] at having
  generalize result.having = given at having ⊢
  cases having with
  | some recorded => exact ⟨_, rfl, recorded⟩

/-- where there is a result, the text is a value beside the aggregate -/
theorem inline_converts {result : QueryResult Trace} (only : q.ThresholdOnly p s)
    (compiled : (q.inline p t).compile c ps Trace.factory = .ok result) :
    ∃ v, Site.convert ⟨c, result.entity, Trace.factory⟩ s (.literal t) = .ok v := by
  obtain ⟨r, resolved, rendered⟩ := bind_eq_ok.1 compiled
  obtain ⟨w, hw, a, compared⟩ := only.compared
  obtain ⟨record, -, recorded⟩ :=
    (render_resolve_records resolved rendered).grouped (CommandLine.having_inline hw)
  have subject := only.subject hw compared ps (Site.convert ⟨c, result.entity, Trace.factory⟩)
  obtain ⟨v, hv⟩ := Condition.record_value subject rfl _ recorded (CommandLine.compared_inline compared)
  exact ⟨v, toOption_eq_some.1 hv⟩

/-- a parameter is compared with its value -/
theorem threshold_compares {result : QueryResult Trace} (only : q.ThresholdOnly p s) (own : ps.lookup p = some v)
    (compiled : q.compile c ps Trace.factory = .ok result) : ∃ having ∈ result.having, having.Compares s v := by
  obtain ⟨r, resolved, rendered⟩ := bind_eq_ok.1 compiled
  obtain ⟨w, hw, a, compared⟩ := only.compared
  obtain ⟨record, hrecord, recorded⟩ := (render_resolve_records resolved rendered).grouped hw
  exact ⟨record, hrecord, Condition.record_compares recorded compared (only.subject hw compared _ _)
    (by rw [Statement.sense_named, own])⟩

/-- **A query with the text compiles as the one with the parameter does**, if the aggregate converts the text to the
value of the parameter. -/
theorem compile_inline_threshold {Q : Type} {f : Factory Q} (only : q.ThresholdOnly p s)
    (alike : CommandLine.AlikeBut p (some v) ps ps')
    (converts : ∀ entity, CommandLine.targetEntity c q = some entity →
      Site.convert ⟨c, entity, Trace.factory⟩ s (.literal t) = .ok v) :
    ((q.inline p t).compile c ps' f).toOption = (q.compile c ps f).toOption := by
  rw [Statement.compile, Statement.compile, Statement.resolve_inline alike]
  cases resolved : q.resolve c ps with
  | error e => rfl
  | ok r => exact render_threshold only alike resolved (converts _ (CommandLine.targetEntity_eq resolved))

theorem Parameters.gives_lookup (ps : Parameters) : ps.Gives fun name => (ps.lookup name).getD (.string "") := by
  intro name value found
  simp only [found, Option.getD_some]

/-- what a parameter is bound to does not decide whether there is a result -/
theorem compile_bound {Q : Type} {f : Factory Q} {result : QueryResult Q} (same : ps'.BindsSame ps)
    (compiled : q.compile c ps f = .ok result) : ∃ result', q.compile c ps' f = .ok result' := by
  have filled {bound : Parameters} (same : bound.BindsSame ps) : ∃ given,
      q.resolve c bound = (q.resolve c ps.names).map (ResolvedStatement.fill given) :=
    ⟨_, q.resolve_filled fun name _ => Parameters.reads_of_gives same bound.gives_lookup name⟩
  obtain ⟨given, hfilled⟩ := filled fun _ => rfl
  obtain ⟨given', hfilled'⟩ := filled same
  obtain ⟨r, resolved, rendered⟩ := bind_eq_ok.1 compiled
  obtain ⟨named, hnamed, rfl⟩ := map_eq_ok.1 (hfilled.symm.trans resolved)
  rw [ResolvedStatement.render_replay, ResolvedStatement.render_filled] at rendered
  obtain ⟨record, hrecord, -⟩ := map_eq_ok.1 rendered
  obtain ⟨form, hform, -⟩ := map_eq_ok.1 hrecord
  rw [Statement.compile, hfilled', hnamed, Except.map, ok_bind, ResolvedStatement.render_replay,
    ResolvedStatement.render_filled, hform]
  exact ⟨_, rfl⟩

/-- **The value of a parameter can be read off a result.** -/
theorem value_of_compile {result : QueryResult Trace} {v' : Value} (only : q.ThresholdOnly p s) {bound : Parameters}
    (alike : CommandLine.AlikeBut p (some v) ps bound) (alike' : CommandLine.AlikeBut p (some v') ps' bound)
    (first : q.compile c ps Trace.factory = .ok result) (second : q.compile c ps' Trace.factory = .ok result) :
    v = v' := by
  obtain ⟨r, resolved, rendered⟩ := bind_eq_ok.1 first
  obtain ⟨r', resolved', rendered'⟩ := bind_eq_ok.1 second
  obtain ⟨w, hw, a, compared⟩ := only.compared
  obtain ⟨record, hrecord, recorded⟩ := (render_resolve_records resolved rendered).grouped hw
  obtain ⟨record', hrecord', recorded'⟩ := (render_resolve_records resolved' rendered').grouped hw
  cases hrecord.symm.trans hrecord'
  refine Condition.value_of_record recorded recorded' ?_ ?_ ⟨_, compared⟩
  · exact fun pair other => q.beside_alike alike' alike _ other
  · intro o compared
    simp only [Sense.beside, only.subject hw compared, Option.bind_eq_bind, Option.bind_some, Statement.sense_named,
      alike.own, alike'.own, and_self]

end

namespace CommandLine

/-! ## The command line -/

section

variable {c : Catalog} {q : Statement} {p t : String} {s : Subject} {v : Value} {ps ps' : Parameters}

/-- **An option for a threshold gives its text**, whatever it is compared with. -/
theorem typedValue_threshold (only : q.ThresholdOnly p s) (entity : Option String) :
    typedValue c entity (parameterPaths q) p t = .ok (.string t) := by
  have untyped : (parameterPaths q).lookup p = none := by
    cases typed : (parameterPaths q).lookup p with
    | none => rfl
    | some path =>
      rw [parameterPaths_eq, lookup_firstOnly] at typed
      obtain ⟨w, hw, e, compared, -⟩ := mem_comparedPaths.1 (mem_of_lookup typed)
      exact absurd (Condition.compared_operands w compared).2 (only.absent w hw)
  unfold typedValue
  rw [untyped]
  split
  · rename_i found
    cases found
  · rfl

theorem AlikeBut.bindsSame {bound : Parameters} {v' : Value} (alike : AlikeBut p (some v) ps bound)
    (alike' : AlikeBut p (some v') ps' bound) : ps'.BindsSame ps := by
  intro name
  by_cases same : name = p
  · rw [same, alike.own, alike'.own, Option.isSome_some, Option.isSome_some]
  · rw [alike.others name same, alike'.others name same]

theorem targetEntity_of_compile {Q : Type} {f : Factory Q} {result : QueryResult Q}
    (compiled : q.compile c ps f = .ok result) : targetEntity c q = some result.entity := by
  obtain ⟨r, resolved, rendered⟩ := bind_eq_ok.1 compiled
  rw [targetEntity_eq resolved, (ResolvedStatement.render_ok rendered).entity]

/-- **The query with the text compiles to what the one with the parameter does**, for the value to which the aggregate
converts the text. -/
theorem compile_inline_iff {Q : Type} {f : Factory Q} {result : QueryResult Q} (only : q.ThresholdOnly p s)
    (alike : AlikeBut p (some v) ps ps') :
    (q.inline p t).compile c ps' f = .ok result ↔
      ∃ v', Site.convert ⟨c, result.entity, Trace.factory⟩ s (.literal t) = .ok v' ∧
        q.compile c (setParameter p v' ps) f = .ok result := by
  have same {v' : Value} (target : targetEntity c q = some result.entity)
      (converts : Site.convert ⟨c, result.entity, Trace.factory⟩ s (.literal t) = .ok v') :
      ((q.inline p t).compile c ps' f).toOption = (q.compile c (setParameter p v' ps) f).toOption := by
    refine compile_inline_threshold only (alike.set v') fun entity found => ?_
    cases target.symm.trans found
    exact converts
  constructor
  · intro inlined
    have recorded := inlined
    rw [Statement.compile_replay] at recorded
    obtain ⟨record, hrecord, rfl⟩ := map_eq_ok.1 recorded
    obtain ⟨v', converts⟩ := inline_converts only hrecord
    refine ⟨v', converts, toOption_eq_some.1 ?_⟩
    rw [← same (targetEntity_of_compile (q := q.inline p t) inlined) converts, inlined]
    rfl
  · rintro ⟨v', converts, compiled⟩
    refine toOption_eq_some.1 ?_
    rw [same (targetEntity_of_compile compiled) converts, compiled]
    rfl

/-- with the option and with the text the other options give the same, or the same one of them fails -/
theorem typedParameters_inline {before after : List String} (name : Query.isParameterName p = true)
    (only : q.ThresholdOnly p s) (spares : ∀ text ∈ before ++ after, Spares p text) :
    (∃ ps ps', typedParameters c q (before ++ assignment p t :: after) = .ok ps ∧
      typedParameters c (q.inline p t) (before ++ after) = .ok ps' ∧ AlikeBut p (some (.string t)) ps ps') ∨
    ∃ e, typedParameters c q (before ++ assignment p t :: after) = .error e ∧
      typedParameters c (q.inline p t) (before ++ after) = .error e := by
  have same : SameOutcome (AlikeBut p (some (.string t))) (typedParameters c q (before ++ assignment p t :: after))
      (typedParameters c (q.inline p t) (before ++ after)) :=
    values_without (fun _ other => lookup_inline other) name spares (typedValue_threshold only _)
  generalize typedParameters c q (before ++ assignment p t :: after) = given at same ⊢
  generalize typedParameters c (q.inline p t) (before ++ after) = given' at same ⊢
  cases same with
  | ok alike => exact .inl ⟨_, _, rfl, rfl, alike⟩
  | error e => exact .inr ⟨e, rfl, rfl⟩

theorem compiled_eq {Q : Type} {f : Factory Q} {params : List String}
    (typed : typedParameters c q params = .ok ps) : compiled c f q params = (q.compile c ps f).toOption := by
  rw [compiled, typed]
  rfl

variable {before after : List String}

/-- **A threshold on the command line stays a text.** An option for a parameter that is only compared with an aggregate
gives it its text. A literal is converted to the kind that belongs beside the aggregate, and the query with the text is
the one with the parameter bound to the value of that kind. So if the query with the parameter fails, the one with the
text does; but if it compiles, both are the same for every factory exactly if texts belong beside the aggregate. -/
theorem compile_threshold (name : Query.isParameterName p = true) (only : q.ThresholdOnly p s)
    (spares : ∀ text ∈ before ++ after, Spares p text) :
    (∀ ps, typedParameters c q (before ++ assignment p t :: after) = .ok ps →
      ps.lookup p = some (.string t) ∧
      ∀ {Q : Type} (f : Factory Q) r, compiled c f (q.inline p t) (before ++ after) = some r ↔
        ∃ v, c.kindBeside r.entity s = some v.kind ∧ v.kind.convert t = .ok v ∧
          q.compile c (setParameter p v ps) f = .ok r) ∧
    (∀ {Q : Type} (f : Factory Q), compiled c f q (before ++ assignment p t :: after) = none →
      compiled c f (q.inline p t) (before ++ after) = none) ∧
    ∀ r, compiled c Trace.factory q (before ++ assignment p t :: after) = some r →
      (∃ having ∈ r.having, having.Compares s (.string t)) ∧
      ((∀ {Q : Type} (f : Factory Q), compiled c f q (before ++ assignment p t :: after) =
          compiled c f (q.inline p t) (before ++ after)) ↔
        c.kindBeside r.entity s = some .string) := by
  rcases typedParameters_inline (c := c) (t := t) name only spares with
    ⟨ps, ps', typed, typed', alike⟩ | ⟨e, typed, typed'⟩
  · simp only [compiled_eq typed, compiled_eq typed', toOption_eq_some]
    refine ⟨?_, ?_, ?_⟩
    · intro ps₀ same
      cases typed.symm.trans same
      refine ⟨alike.own, fun f r => ?_⟩
      rw [compile_inline_iff only alike]
      simp only [Render.convert_literal_iff, and_assoc]
    · intro Q f fails
      refine toOption_eq_none fun r inlined => ?_
      obtain ⟨v, -, compiled⟩ := (compile_inline_iff only alike).1 inlined
      obtain ⟨r', compiled'⟩ := compile_bound ((alike.set v).bindsSame alike) compiled
      rw [compiled'] at fails
      cases fails
    · intro r compiled
      refine ⟨threshold_compares only alike.own compiled, ?_, ?_⟩
      · intro same
        have inlined : (q.inline p t).compile c ps' Trace.factory = .ok r := by
          rw [← toOption_eq_some, ← same, compiled]
          rfl
        obtain ⟨v, converts, compiled'⟩ := (compile_inline_iff only alike).1 inlined
        obtain rfl := value_of_compile only alike (alike.set v) compiled compiled'
        exact (Render.convert_literal_iff.1 converts).1
      · intro kind Q f
        refine (compile_inline_threshold only alike fun entity target => ?_).symm
        cases (targetEntity_of_compile compiled).symm.trans target
        exact Render.convert_literal_iff.2 ⟨kind, rfl⟩
  · refine ⟨fun ps same => ?_, fun f _ => ?_, fun r compiled => ?_⟩
    · cases typed.symm.trans same
    · rw [CommandLine.compiled, typed']
      rfl
    · rw [CommandLine.compiled, typed] at compiled
      cases compiled

def huts : Catalog where
  entities := [⟨"Hut", none, [("beds", ⟨.long, false, []⟩), ("valley", ⟨.string, false, []⟩)]⟩]
  sound := by decide +kernel

/-- huts by their number of beds, with an aggregate that is compared with one limit twice -/
def hutsBeyond (a : AggregateExpr) : Statement where
  select := none
  sources := [⟨"Hut", some "h"⟩]
  joins := []
  filter := none
  groupBy := some [⟨["h", "beds"], none⟩]
  having := some (.and [.compare .less (.named "limit") (.aggregate a),
    .not (.among (.aggregate a) [.literal (.number "9"), .named "limit"] false)])
  orderBy := none

theorem hutsBeyond_thresholdOnly (a : AggregateExpr) : (hutsBeyond a).ThresholdOnly "limit"
    ⟨some (.of a.function a.distinct), (hutsBeyond a).naming.expand a.path.segments⟩ where
  absent := by
    rintro w ⟨⟩
  value := by
    rintro w ⟨⟩
    simp [Condition.OnlyAsValue, Condition.OnlyAsValues]
  aggregate := by
    rintro w ⟨⟩ o compared
    obtain rfl : o = .aggregate a := by simpa [Condition.compared, Condition.comparedIn] using compared
    exact ⟨a, rfl, rfl⟩
  present := ⟨_, rfl, by simp [Condition.operands, Condition.operandsOf]⟩

/-- the number of valleys -/
def valleyCount : AggregateExpr := ⟨.count, false, ⟨["h", "valley"], none⟩⟩

/-- the first valley by name -/
def firstValley : AggregateExpr := ⟨.min, false, ⟨["valley"], none⟩⟩

/-- A limit for the number of valleys stays a text, and one for their names is a text anyway. -/
theorem hutsBeyond_limited :
    (∃ r, compiled huts Trace.factory (hutsBeyond valleyCount) [assignment "limit" "2"] = some r ∧
      (∃ having ∈ r.having, having.Compares ⟨some .count, ["valley"]⟩ (.string "2")) ∧
      ¬∀ {Q : Type} (f : Factory Q), compiled huts f (hutsBeyond valleyCount) [assignment "limit" "2"] =
        compiled huts f ((hutsBeyond valleyCount).inline "limit" "2") []) ∧
    ∃ r, compiled huts Trace.factory (hutsBeyond firstValley) [assignment "limit" "2"] = some r ∧
      ∀ {Q : Type} (f : Factory Q), compiled huts f (hutsBeyond firstValley) [assignment "limit" "2"] =
        compiled huts f ((hutsBeyond firstValley).inline "limit" "2") [] := by
  have no_others : ∀ text ∈ ([] ++ [] : List String), Spares "limit" text := by simp
  have outcome (a : AggregateExpr) := compile_threshold (c := huts) (t := "2") (by decide) (hutsBeyond_thresholdOnly a)
    no_others
  obtain ⟨r, hr⟩ := Option.isSome_iff_exists.1 (show (compiled huts Trace.factory (hutsBeyond valleyCount)
    [assignment "limit" "2"]).isSome = true by decide +kernel)
  obtain ⟨r', hr'⟩ := Option.isSome_iff_exists.1 (show (compiled huts Trace.factory (hutsBeyond firstValley)
    [assignment "limit" "2"]).isSome = true by decide +kernel)
  obtain ⟨text, same⟩ := (outcome valleyCount).2.2 r hr
  obtain ⟨-, same'⟩ := (outcome firstValley).2.2 r' hr'
  refine ⟨⟨r, hr, text, fun all => ?_⟩, r', hr', fun f => ?_⟩
  · cases same.1 all
  · have entity : r'.entity = "Hut" := by
      obtain ⟨ps, -, compiled⟩ := Option.bind_eq_some_iff.1 hr'
      have target := targetEntity_of_compile (toOption_eq_some.1 compiled)
      exact Option.some.inj (target.symm.trans (by decide +kernel))
    refine same'.2 ?_ f
    rw [entity]
    decide +kernel

/-- the text of the query, with something in the place of its parameter -/
def hutsBeyondText (limit : String) : String :=
  "FROM Hut h GROUP BY h.beds HAVING " ++ limit ++ " < COUNT(h.valley) AND NOT COUNT(h.valley) IN (9, " ++ limit ++ ")"

/-- the tests in the HAVING query of a result -/
def groupTests (r : Option (QueryResult Trace)) : Option (List Positive) := (r.bind (·.having)).map Trace.leaves

/-- The number of valleys is compared with a text if the limit is an option, and with a number if it is written. -/
theorem hutsBeyond_untyped :
    let given := compiledText .standard huts Trace.factory (hutsBeyondText ":limit") [assignment "limit" "2"]
    let inlined := compiledText .standard huts Trace.factory (hutsBeyondText "'2'") []
    Query.parse (hutsBeyondText ":limit") = .ok (hutsBeyond valleyCount) ∧
      (hutsBeyond valleyCount).ThresholdOnly "limit" ⟨some .count, ["valley"]⟩ ∧
      groupTests given = some [(some .count, .compare "valley" .greater (.string "2")),
        (some .count, .among "valley" [.long 9, .string "2"])] ∧
      groupTests inlined = some [(some .count, .compare "valley" .greater (.long 2)),
        (some .count, .among "valley" [.long 9, .long 2])] ∧
      given ≠ inlined := by
  intro given inlined
  have texts : groupTests given = some [(some .count, .compare "valley" .greater (.string "2")),
      (some .count, .among "valley" [.long 9, .string "2"])] := by decide +kernel
  have numbers : groupTests inlined = some [(some .count, .compare "valley" .greater (.long 2)),
      (some .count, .among "valley" [.long 9, .long 2])] := by decide +kernel
  refine ⟨by decide +kernel, hutsBeyond_thresholdOnly valleyCount, texts, numbers, fun same => ?_⟩
  rw [same, numbers] at texts
  exact absurd texts (by decide)

end

end CommandLine

end EntitySearch
