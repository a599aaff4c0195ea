/-
What a compiled query names.

Whatever text is compiled, by whatever configuration: every property in the result is the dotted form of a property of
the target entity, of a kind that its clause takes (`QueryResult.Sound`). For a factory whose queries cannot be looked
into, it is the record of the same compilation, replayed by the factory to give the result, that is sound
(`compile_sound`).
-/
import EntitySearch.Engine
import EntitySearch.Proofs.Render.Replay
import EntitySearch.Proofs.Render.Statement

namespace EntitySearch

/-- the compiled query, from where it is read -/
def Statement.compile {Q : Type} (c : Catalog) (parameters : Parameters) (f : Factory Q) (q : Statement) :
    Except QueryError (QueryResult Q) :=
  q.resolve c parameters >>= fun s => s.render c f

theorem Statement.compile_replay {Q : Type} (c : Catalog) (parameters : Parameters) (f : Factory Q) (q : Statement) :
    q.compile c parameters f = (q.compile c parameters Trace.factory).map (QueryResult.map (Trace.replay f)) := by
  unfold Statement.compile
  cases q.resolve c parameters with
  | error e => rfl
  | ok s => exact s.render_replay c f

/-- Tests, groups and orders name testable properties, and projections selectable ones. -/
structure QueryResult.Sound (c : Catalog) (r : QueryResult Trace) : Prop where
  filter : ∀ t ∈ r.query.tests, c.TestableName r.entity t.property
  having : ∀ q ∈ r.having, ∀ t ∈ q.tests, c.TestableName r.entity t.property
  sort : ∀ field ∈ r.sort, c.TestableName r.entity field.property
  groupBy : ∀ name ∈ r.groupBy, c.TestableName r.entity name
  projections : ∀ p ∈ r.projections, p.Sound c r.entity

namespace Render

variable {c : Catalog} {entity : String} {subject : SubjectOf}

/-- the tests of a condition over located operands name testable properties -/
theorem query_tests {w : Condition ResolvedOperand} (h : ∀ o ∈ w.operands, Located c entity subject o) {q : Trace}
    (hq : query ⟨c, entity, Trace.factory⟩ subject (some w) = .ok q) :
    ∀ t ∈ q.tests, c.TestableName entity t.property := by
  rw [query_eq] at hq
  obtain ⟨p, hp, hq⟩ := bind_eq_ok.1 hq
  refine Predicate.render_tests p ?_ (structural_ok hq)
  refine tree_induct (Predicate.closed_leaves fun l => ∀ t ∈ l.query.tests, c.TestableName entity t.property) w
    (fun a ha => ?_) hp
  obtain ⟨⟨o, ho, found⟩, hproperty⟩ := ha
  obtain ⟨found', hfound', testable⟩ := h o ho
  cases hfound'.symm.trans found
  have named : c.TestableName entity a.test.property := ⟨a.subject.path, hproperty, testable _ rfl⟩
  cases hn : a.negated <;>
    simpa [Atom.predicate, hn, Predicate.leaves, Trace.factory, Trace.tests] using named

end Render

section

variable {c : Catalog} {parameters : Parameters} {q : Statement} {s : ResolvedStatement}

theorem filter_tests (h : q.Resolves c parameters s) {w : Option (Condition Operand)}
    {d : Option (Condition ResolvedOperand)} {clause : Clause}
    (hd : resolveOptional c parameters s.scope clause w = .ok d) {t : Trace}
    (ht : Render.query ⟨c, s.target.entity, Trace.factory⟩ (clause.subject s.aliases) d = .ok t) :
    ∀ test ∈ t.tests, c.TestableName s.target.entity test.property := by
  cases w with
  | none =>
    cases hd
    rw [Render.query_none] at ht
    cases ht
    simp [Trace.factory, Trace.tests]
  | some w =>
    obtain ⟨e, he, hd⟩ := bind_eq_ok.1 hd
    cases hd
    exact Render.query_tests (resolveCondition_located h.follows s.scope_target rfl he) ht

theorem render_sound (h : q.Resolves c parameters s) {r : QueryResult Trace} (hr : s.render c Trace.factory = .ok r) :
    r.Sound c := by
  have renders := ResolvedStatement.render_ok hr
  constructor <;> rw [renders.entity]
  · exact filter_tests h h.filter renders.query
  · intro t ht
    obtain ⟨w, hw, hquery⟩ := rel_right renders.having t ht
    exact filter_tests h h.having (Option.mem_def.1 hw ▸ hquery)
  · intro field hfield
    obtain ⟨i, hi, hname⟩ := forall₂_right renders.sort field hfield
    obtain ⟨item, -, hitem⟩ := forall₂_right h.orderBy i hi
    obtain ⟨name, hname', testable⟩ :=
      Scope.propertyName_testable (h.follows.enter .order) s.scope_target rfl hitem
    cases hname.symm.trans hname'
    exact testable
  · intro name hmem
    obtain ⟨p, hp, hname⟩ := forall₂_right renders.groupBy name hmem
    obtain ⟨e, -, he⟩ := forall₂_right h.groupBy p hp
    obtain ⟨name', hname', testable⟩ := Scope.propertyName_testable h.follows s.scope_target rfl he
    cases hname.symm.trans hname'
    exact testable
  · intro p hmem
    obtain ⟨i, hi, hp⟩ := forall₂_right renders.projections p hmem
    obtain ⟨item, -, hitem⟩ := forall₂_right h.items i hi
    obtain ⟨p', hp', sound⟩ := Scope.projection_sound (h.follows.enter .select) s.scope_target rfl hitem
    cases hp.symm.trans hp'
    exact sound

end

namespace Engine

variable {Q : Type} (config : Config) (c : Catalog) (parameters : Parameters) (f : Factory Q) (text : String)

theorem compile_replay :
    compile config c parameters f text =
      (compile config c parameters Trace.factory text).map (QueryResult.map (Trace.replay f)) := by
  unfold compile
  cases read config text with
  | error e => rfl
  | ok q => exact q.compile_replay c parameters f

/-- **Only properties of the schema are named**, each in a clause that takes its kind: whatever is compiled, the result
is a sound record, replayed by the factory. -/
theorem compile_sound {r : QueryResult Q} (h : compile config c parameters f text = .ok r) :
    ∃ record, compile config c parameters Trace.factory text = .ok record ∧ r = record.map (Trace.replay f) ∧
      record.Sound c := by
  rw [compile_replay] at h
  obtain ⟨record, hrecord, rfl⟩ := map_eq_ok.1 h
  refine ⟨record, hrecord, rfl, ?_⟩
  simp only [compile, bind_eq_ok] at hrecord
  obtain ⟨q, -, s, hs, hr⟩ := hrecord
  exact render_sound (Statement.resolve_ok hs) hr

/-- A query with a join, an unqualified name and an aggregate names only what it may. -/
theorem compile_hikes_sound : ∃ r,
    compile .standard hikes [] Trace.factory
      "SELECT s.altitude FROM Hike h JOIN h.start s WHERE 3 < difficulty ORDER BY start.altitude" = .ok r ∧
    ∃ record, compile .standard hikes [] Trace.factory
        "SELECT s.altitude FROM Hike h JOIN h.start s WHERE 3 < difficulty ORDER BY start.altitude" = .ok record ∧
      r = record.map (Trace.replay Trace.factory) ∧ record.Sound hikes := by
  obtain ⟨r, hr⟩ := exists_of_isOk (show (compile .standard hikes [] Trace.factory
    "SELECT s.altitude FROM Hike h JOIN h.start s WHERE 3 < difficulty ORDER BY start.altitude").isOk = true
    by decide +kernel)
  exact ⟨r, hr, compile_sound .standard hikes [] Trace.factory _ hr⟩

end Engine

end EntitySearch
