/-
Rendered queries mean what is written.

`Statement.sense` reads operands off the query: a reference is the property to which it points, under its aggregation,
and a literal or a parameter is its value. `ResolvedStatement.Renders` says which part of a result comes from which
clause. Both passes are put together here: whatever truth values the positive tests have, the query of WHERE holds where
the condition in WHERE does, and the query of HAVING where that in HAVING does (`render_resolve_holds`).
-/
import EntitySearch.Proofs.Backend.Trace
import EntitySearch.Proofs.Render.Clause

namespace EntitySearch

/-! ## The meaning of a query as it is written -/

/-- what the operands of a query stand for -/
def Statement.sense (q : Statement) (parameters : Parameters) (convert : Conversion) : Sense Operand where
  side o := match o.reference with
    | some (f, e) => some (.subject ⟨f, q.naming.expand e.segments⟩)
    | none => (o.given parameters).map .value
  convert := convert

/-- the truth of a condition that may be left out -/
def Condition.HoldsIfGiven {α : Type} (m : Sense α) (ν : Valuation) : Option (Condition α) → Prop
  | none => True
  | some c => c.Holds m ν

section

variable {c : Catalog} {parameters : Parameters} {q : Statement} {s : ResolvedStatement}

/-- resolved operands stand for what is written -/
theorem resolveOperand_agree (h : q.Resolves c parameters s) (convert : Conversion) (clause : Clause) :
    Condition.Agree (s.scope.resolveOperand c parameters clause) (q.sense parameters convert)
      (Render.sense convert (clause.subject s.aliases)) where
  convert := rfl
  side ho := by
    have matched := Scope.resolveOperand_ok h.follows s.scope_target rfl ho
    simp only [Render.sense, Render.side, Statement.sense]
    cases matched with
    | property reference found => rw [show clause.subject s.aliases _ = _ from found, reference]
    | value reference given value =>
      rw [clause.subject_passesValues s.aliases value, reference, given, value]

end

/-! ## The parts of a result -/

/-- The parts of a result come from the clauses of the query. -/
structure ResolvedStatement.Renders {Q : Type} (c : Catalog) (f : Factory Q) (s : ResolvedStatement)
    (r : QueryResult Q) : Prop where
  entity : r.entity = s.target.entity
  projections : List.Forall₂ (fun i p => Render.projection s.aliases i = .ok p) s.items r.projections
  query : Render.query ⟨c, s.target.entity, f⟩ (Clause.filter.subject s.aliases) s.filter = .ok r.query
  having : Option.Rel
    (fun h p => Render.query ⟨c, s.target.entity, f⟩ (Clause.having.subject s.aliases) (some h) = .ok p)
    s.having r.having
  sort : List.Forall₂ (fun i p => Render.propertyName s.aliases i.path = .ok p.property) s.orderBy r.sort
  groupBy : List.Forall₂ (fun i p => Render.propertyName s.aliases i = .ok p) s.groupBy r.groupBy

theorem ResolvedStatement.render_ok {Q : Type} {c : Catalog} {f : Factory Q} {s : ResolvedStatement}
    {r : QueryResult Q} (h : s.render c f = .ok r) : s.Renders c f r := by
  simp only [ResolvedStatement.render, bind_eq_ok] at h
  obtain ⟨projections, hprojections, query, hquery, h⟩ := h
  have sorted {sort : List SortField} (hsort : s.orderBy.mapM (fun item =>
      (Render.propertyName s.aliases item.path).map fun name => (⟨name, item.ascending⟩ : SortField)) = .ok sort) :
      List.Forall₂ (fun i p => Render.propertyName s.aliases i.path = .ok p.property) s.orderBy sort :=
    (mapM_eq_ok.1 hsort).imp fun i p hp => by
      obtain ⟨name, hname, rfl⟩ := map_eq_ok.1 hp
      exact hname
  split at h
  · rename_i hnone
    simp only [ok_bind, bind_eq_ok] at h
    obtain ⟨sort, hsort, groupBy, hgroupBy, h⟩ := h
    cases h
    exact ⟨rfl, mapM_eq_ok.1 hprojections, hquery, hnone ▸ .none, sorted hsort, mapM_eq_ok.1 hgroupBy⟩
  · rename_i hsome
    simp only [bind_eq_ok] at h
    obtain ⟨having, hhaving, sort, hsort, groupBy, hgroupBy, h⟩ := h
    obtain ⟨p, hp, rfl⟩ := map_eq_ok.1 hhaving
    cases h
    exact ⟨rfl, mapM_eq_ok.1 hprojections, hquery, hsome ▸ .some hp, sorted hsort, mapM_eq_ok.1 hgroupBy⟩

/-! ## Names in a result -/

namespace Catalog

/-- the dotted form of a property that conditions, groups and orders may speak of -/
def TestableName (c : Catalog) (entity name : String) : Prop := ∃ path, name = Text.dotted path ∧ c.Testable entity path

/-- the dotted form of a property that may be asked for -/
def SelectableName (c : Catalog) (entity name : String) : Prop :=
  ∃ path, name = Text.dotted path ∧ c.Selectable entity path

end Catalog

/-- what is asked for is the entity, or a property that may be -/
def Projection.Sound (c : Catalog) (entity : String) : Projection → Prop
  | .entity => True
  | .property name => c.SelectableName entity name
  | .aggregate _ name => c.SelectableName entity name

namespace Scope

variable {c : Catalog} {s : Scope} {naming : Naming} {target : Target}

theorem propertyName_of_canonical {t : AliasTable} {p : Path} {names : List String}
    (h : t.canonicalNames p = .ok names) : Render.propertyName t p = .ok (Text.dotted names) := by
  rw [Render.propertyName, h]
  rfl

/-- a property outside SELECT is named -/
theorem propertyName_testable (h : s.Follows c naming) (ht : s.target = some target) (outside : s.inSelect = false)
    {e : PathExpr} {p : Path} (hp : s.resolveProperty c e = .ok p) :
    ∃ name, Render.propertyName s.aliases p = .ok name ∧ c.TestableName target.entity name := by
  obtain ⟨canonical, testable⟩ := resolveProperty_testable h ht outside hp
  exact ⟨_, propertyName_of_canonical canonical, _, rfl, testable⟩

/-- an item of SELECT has its projection -/
theorem projection_sound (h : s.Follows c naming) (ht : s.target = some target) (inside : s.inSelect = true)
    {item : SelectItem} {i : ResolvedItem} (hi : s.resolveItem c item = .ok i) :
    ∃ p, Render.projection s.aliases i = .ok p ∧ p.Sound c target.entity := by
  cases item with
  | path e =>
    obtain ⟨p, hp, hi⟩ := bind_eq_ok.1 hi
    cases hi
    cases hroot : Render.isRootAlias s.aliases p with
    | true => exact ⟨.entity, by rw [Render.projection, hroot]; rfl, trivial⟩
    | false =>
      rcases resolvePath_selectable h ht inside hp with alone | ⟨canonical, selectable⟩
      · rw [hroot] at alone
        cases alone
      · refine ⟨.property _, ?_, _, rfl, selectable⟩
        rw [Render.projection, hroot, propertyName_of_canonical canonical]
        rfl
  | aggregate a =>
    obtain ⟨path, hpath, hi⟩ := bind_eq_ok.1 hi
    cases hi
    obtain ⟨p, hp, hpath⟩ := bind_eq_ok.1 hpath
    cases hpath
    obtain ⟨canonical, selectable⟩ := resolveProperty_selectable h ht inside hp
    refine ⟨.aggregate (.of a.function a.distinct) _, ?_, _, rfl, selectable⟩
    rw [Render.projection, propertyName_of_canonical canonical]
    rfl

end Scope

/-! ## Rendering what is resolved -/

namespace Render

variable {Q : Type}

/-- every leaf of a tree holds what the factory makes for its test -/
theorem tree_made (site : Site Q) (subject : SubjectOf) (c : Condition ResolvedOperand) {p : Predicate Q}
    (h : tree site subject c = .ok p) : Predicate.MadeBy site.factory site.entity p.leaves := by
  refine tree_induct (Predicate.closed_leaves fun l => l.query = site.factory.leaf site.entity l.aggregation l.test) c
    (fun a _ => ?_) h
  cases hn : a.negated <;> simp [Atom.predicate, hn, Predicate.leaves]

theorem structural_ok {α : Type} {x : Except StructureError α} {a : α} (h : structural x = .ok a) : x = .ok a := by
  cases x with
  | error e => cases h
  | ok b => cases h; rfl

/-- the query of a clause means what its condition does -/
theorem query_holds {site : Site Q} {subject : SubjectOf} (passes : PassesValues subject) {ν : Valuation}
    {holds : Q → Prop} (reads : Interprets site.factory site.entity ν.holds holds)
    {c : Option (Condition ResolvedOperand)} {r : Q} (h : query site subject c = .ok r) :
    holds r ↔ Condition.HoldsIfGiven (sense site.convert subject) ν c := by
  cases c with
  | none =>
    rw [query_none] at h
    cases h
    exact iff_true_intro reads.matchAll
  | some c =>
    rw [query_eq] at h
    obtain ⟨p, hp, h⟩ := bind_eq_ok.1 h
    rw [Predicate.render_holds reads p (tree_made site subject c hp) (structural_ok h), tree_holds site passes ν c hp]
    rfl

end Render

/-- a condition means the same when it is resolved -/
theorem resolveOptional_holds {c : Catalog} {parameters : Parameters} {q : Statement} {s : ResolvedStatement}
    (h : q.Resolves c parameters s) (convert : Conversion) (ν : Valuation) {clause : Clause}
    {w : Option (Condition Operand)} {d : Option (Condition ResolvedOperand)}
    (hd : resolveOptional c parameters s.scope clause w = .ok d) :
    Condition.HoldsIfGiven (Render.sense convert (clause.subject s.aliases)) ν d ↔
      Condition.HoldsIfGiven (q.sense parameters convert) ν w := by
  cases w with
  | none =>
    cases hd
    exact Iff.rfl
  | some w =>
    obtain ⟨e, he, hd⟩ := bind_eq_ok.1 hd
    cases hd
    exact Condition.traverse_holds (resolveOperand_agree h convert clause) ν w he

theorem having_holds {Q : Type} {c : Catalog} {parameters : Parameters} {q : Statement} {s : ResolvedStatement}
    (h : q.Resolves c parameters s) (site : Site Q) (ν : Valuation) {w : Option (Condition Operand)}
    {d : Option (Condition ResolvedOperand)} (hd : resolveOptional c parameters s.scope .having w = .ok d)
    {holds : Q → Prop} (reads : Interprets site.factory site.entity ν.holds holds) {r : Option Q}
    (hr : Option.Rel (fun d p => Render.query site (Clause.having.subject s.aliases) (some d) = .ok p) d r) :
    Option.Rel (fun w p => holds p ↔ w.Holds (q.sense parameters site.convert) ν) w r := by
  have resolved := resolveOptional_holds h site.convert ν hd
  cases w with
  | none =>
    cases hd
    cases hr
    exact .none
  | some w =>
    obtain ⟨e, he, hd⟩ := bind_eq_ok.1 hd
    cases hd
    cases hr with
    | some hp =>
      exact .some ((Render.query_holds (Clause.subject_passesValues s.aliases .having) reads hp).trans resolved)

/-- **Resolving and rendering keep the meaning**: whatever truth values the positive tests have, the query of WHERE
holds where the condition written in WHERE does, and there is a query of HAVING if there is a condition in HAVING, which
holds where that does. -/
theorem render_resolve_holds {Q : Type} {c : Catalog} {parameters : Parameters} {q : Statement}
    {s : ResolvedStatement} {f : Factory Q} {r : QueryResult Q} (resolved : q.resolve c parameters = .ok s)
    (rendered : s.render c f = .ok r) (ν : Valuation) {holds : Q → Prop}
    (reads : Interprets f r.entity ν.holds holds) :
    let written := q.sense parameters (Site.convert ⟨c, r.entity, f⟩)
    (holds r.query ↔ Condition.HoldsIfGiven written ν q.filter) ∧
      Option.Rel (fun w query => holds query ↔ w.Holds written ν) q.having r.having := by
  have resolves := Statement.resolve_ok resolved
  have renders := ResolvedStatement.render_ok rendered
  rw [renders.entity] at reads ⊢
  constructor
  · rw [Render.query_holds (Clause.subject_passesValues s.aliases .filter) reads renders.query]
    exact resolveOptional_holds resolves _ ν resolves.filter
  · exact having_holds resolves _ ν resolves.having reads renders.having

/-- The query of hard hikes is rendered, and its record means what is written, be every test true. -/
theorem hardHikes_holds : ∃ s r, hardHikes.resolve hikes [("low", .long 0)] = .ok s ∧
    s.render hikes Trace.factory = .ok r ∧
    (r.query.Holds (Valuation.holds fun _ _ => True) ↔
      Condition.HoldsIfGiven (hardHikes.sense [("low", .long 0)] (Site.convert ⟨hikes, r.entity, Trace.factory⟩))
        (fun _ _ => True) hardHikes.filter) := by
  obtain ⟨r, hr⟩ := exists_of_isOk (show
    (hardHikes.resolve hikes [("low", .long 0)] >>= fun s => s.render hikes Trace.factory).isOk = true
    by decide +kernel)
  obtain ⟨s, hs, hr⟩ := bind_eq_ok.1 hr
  exact ⟨s, r, hs, hr, (render_resolve_holds hs hr _ (Trace.holds_interprets r.entity _)).1⟩

end EntitySearch
