/-
What can go wrong when a resolved query is rendered.

Resolving a query settles most of what could: every path in it has canonical names, the property at them exists, and
every operand stands in the clause that has a place for it. Three things are left to rendering (`Fault`): a test between
two properties, a test of none, and a literal that its property does not take. `render_resolve_fails` says that there is
nothing else. In particular scopes are always closed, none takes a child too many, and no negation is empty: a
condition is first turned into its tree, whose negations all hold something (`tree_whole`).
-/
import EntitySearch.Proofs.Predicate.Whole
import EntitySearch.Proofs.Render.Statement

namespace EntitySearch

namespace Render

/-- the faults left to rendering -/
inductive Fault : QueryError → Prop where
  | propertyComparison (left right : String) : Fault (.unsupported (.propertyComparison left right))
  | constantPredicate : Fault (.unsupported .constantPredicate)
  | invalidValue (property value expected : String) : Fault (.schema (.invalidValue property value expected))

variable {Q : Type} {site : Site Q} {subject : SubjectOf}

/-! ## Single tests -/

theorem convertAs_fails (kind : Kind) (f : Aggregation) (path : List String) (literal : String) :
    FailsOnly (Fault ∘ .schema) (Site.convertAs kind f path literal) := by
  unfold Site.convertAs
  split
  · exact .ok _
  · exact .error (.invalidValue ..)

theorem catalog_convert_fails {c : Catalog} {entity : String} {path : List String}
    (h : c.hasProperty entity path = true) (literal : String) :
    FailsOnly (Fault ∘ .schema) (c.convert entity path literal) := by
  unfold Catalog.convert
  split
  · rename_i hnone
    simp [Catalog.hasProperty, hnone] at h
  · split
    · exact .ok _
    · exact .error (.invalidValue ..)

/-- a value that is compared with a property of the catalog is converted, or is not valid for the property -/
theorem convert_fails {s : Subject} (h : site.catalog.Testable site.entity s.path) (v : Comparand) :
    FailsOnly Fault (site.convert s v) := by
  cases v with
  | parameter value => exact .ok value
  | literal text =>
    have literal_fails : FailsOnly (Fault ∘ .schema) (site.convertLiteral s text) := by
      unfold Site.convertLiteral
      split
      · exact convertAs_fails _ _ _ _
      · exact convertAs_fails _ _ _ _
      · exact convertAs_fails _ _ _ _
      · exact catalog_convert_fails h.present text
    unfold Site.convert
    dsimp only
    split
    · exact .ok _
    · rename_i e he
      exact .error (literal_fails e he)

theorem comparand_fails (property operand : ResolvedOperand) : FailsOnly Fault (property.comparand operand) := by
  unfold ResolvedOperand.comparand
  split
  · exact .ok _
  · exact .ok _
  · exact .error (.propertyComparison ..)

/-- the operand is located in the site -/
abbrev LocatedIn (site : Site Q) (subject : SubjectOf) (o : ResolvedOperand) : Prop :=
  Located site.catalog site.entity subject o

theorem Located.fails {c : Catalog} {entity : String} {o : ResolvedOperand} (h : Located c entity subject o) :
    FailsOnly Fault (subject o) := by
  obtain ⟨found, hfound, -⟩ := h
  rw [hfound]
  exact .ok found

theorem Located.testable {c : Catalog} {entity : String} {o : ResolvedOperand} (h : Located c entity subject o)
    {s : Subject} (hs : subject o = .ok (some s)) : c.Testable entity s.path := by
  obtain ⟨found, hfound, htestable⟩ := h
  cases hfound.symm.trans hs
  exact htestable s rfl

theorem requireSubject_fails {o : ResolvedOperand} (h : LocatedIn site subject o) :
    FailsOnly Fault (requireSubject subject o) := by
  refine h.fails.bind fun found _ => ?_
  cases found with
  | none => exact .error .constantPredicate
  | some s => exact .ok s

theorem orient_fails {r : Relation} {left right : ResolvedOperand} (hl : LocatedIn site subject left)
    (hr : LocatedIn site subject right) : FailsOnly Fault (orient subject r left right) := by
  refine hl.fails.bind fun l _ => hr.fails.bind fun m _ => ?_
  rcases l with _ | l <;> rcases m with _ | m
  · exact .error .constantPredicate
  · exact (comparand_fails right left).bind fun v _ => .ok _
  · exact (comparand_fails left right).bind fun v _ => .ok _
  · exact .error (.propertyComparison ..)

theorem orient_testable {r r' : Relation} {left right : ResolvedOperand} {s : Subject} {v : Comparand}
    (hl : LocatedIn site subject left) (hr : LocatedIn site subject right)
    (h : orient subject r left right = .ok (s, r', v)) : site.catalog.Testable site.entity s.path := by
  rcases orient_ok h with ⟨hs, -⟩ | ⟨-, hs, -⟩
  · exact hl.testable hs
  · exact hr.testable hs

theorem compare_fails {r : Relation} {left right : ResolvedOperand} (hl : LocatedIn site subject left)
    (hr : LocatedIn site subject right) : FailsOnly Fault (Atom.compare site.convert subject r left right) := by
  refine (orient_fails hl hr).bind fun _ horient => ?_
  have testable := orient_testable hl hr horient
  exact (convert_fails testable _).bind fun _ _ => .ok _

theorem between_fails {operand lower upper : ResolvedOperand} {negated : Bool} (h : LocatedIn site subject operand) :
    FailsOnly Fault (Atom.between site.convert subject operand lower upper negated) := by
  refine (requireSubject_fails h).bind fun s hs => ?_
  have testable := h.testable (requireSubject_ok hs)
  refine (comparand_fails operand lower).bind fun low _ => ?_
  refine (comparand_fails operand upper).bind fun high _ => ?_
  refine (convert_fails testable low).bind fun _ _ => ?_
  exact (convert_fails testable high).bind fun _ _ => .ok _

theorem among_fails {operand : ResolvedOperand} {values : List ResolvedOperand} {negated : Bool}
    (h : LocatedIn site subject operand) :
    FailsOnly Fault (Atom.among site.convert subject operand values negated) := by
  refine (requireSubject_fails h).bind fun s hs => ?_
  have testable := h.testable (requireSubject_ok hs)
  refine (FailsOnly.mapM fun v _ => comparand_fails operand v).bind fun _ _ => ?_
  exact (FailsOnly.mapM fun v _ => convert_fails testable v).bind fun _ _ => .ok _

theorem like_fails {operand pattern : ResolvedOperand} {escape : Option Char} {negated : Bool}
    (h : LocatedIn site subject operand) : FailsOnly Fault (Atom.like subject operand pattern escape negated) := by
  refine (requireSubject_fails h).bind fun _ _ => ?_
  exact (comparand_fails operand pattern).bind fun _ _ => .ok _

theorem isNull_fails {operand : ResolvedOperand} {negated : Bool} (h : LocatedIn site subject operand) :
    FailsOnly Fault (Atom.isNull subject operand negated) :=
  (requireSubject_fails h).bind fun _ _ => .ok _

/-! ## Trees -/

mutual

/-- the tree of a condition over located operands is made, or one of its tests is at fault -/
theorem tree_fails : ∀ {c : Condition ResolvedOperand}, (∀ o ∈ c.operands, LocatedIn site subject o) →
    FailsOnly Fault (tree site subject c)
  | .and cs, h => (trees_fails h).bind fun _ _ => .ok _
  | .or cs, h => (trees_fails h).bind fun _ _ => .ok _
  | .not c, h => (tree_fails (c := c) h).bind fun _ _ => .ok _
  | .compare r left right, h =>
    (compare_fails (h left (by simp [Condition.operands])) (h right (by simp [Condition.operands]))).bind
      fun _ _ => .ok _
  | .between operand lower upper negated, h =>
    (between_fails (h operand (by simp [Condition.operands]))).bind fun _ _ => .ok _
  | .among operand values negated, h =>
    (among_fails (h operand (by simp [Condition.operands]))).bind fun _ _ => .ok _
  | .like operand pattern escape negated, h =>
    (like_fails (h operand (by simp [Condition.operands]))).bind fun _ _ => .ok _
  | .isNull operand negated, h => (isNull_fails (h operand (by simp [Condition.operands]))).bind fun _ _ => .ok _

theorem trees_fails : ∀ {cs : List (Condition ResolvedOperand)},
    (∀ o ∈ Condition.operandsOf cs, LocatedIn site subject o) → FailsOnly Fault (trees site subject cs)
  | [], _ => .ok []
  | _ :: _, h =>
    have first := tree_fails fun o ho => h o (List.mem_append_left _ ho)
    have rest := trees_fails fun o ho => h o (List.mem_append_right _ ho)
    first.bind fun _ _ => rest.bind fun _ _ => .ok _

end

/-- no negation in the tree of a condition is empty -/
theorem tree_whole {c : Condition ResolvedOperand} {p : Predicate Q} (h : tree site subject c = .ok p) : p.Whole := by
  refine tree_induct ⟨Predicate.allWhole_iff.2, Predicate.allWhole_iff.2, id⟩ c (fun a _ => ?_) h
  cases hn : a.negated <;> simp [Atom.predicate, hn, Predicate.Whole]

/-- the query of a clause over located operands is made, or one of its tests is at fault -/
theorem query_fails {c : Condition ResolvedOperand} (h : ∀ o ∈ c.operands, LocatedIn site subject o) :
    FailsOnly Fault (query site subject (some c)) := by
  rw [query_eq]
  refine (tree_fails h).bind fun p hp => ?_
  obtain ⟨q, hq⟩ := Predicate.render_whole site.factory site.entity (tree_whole hp)
  rw [hq]
  exact .ok q

end Render

open Render

variable {Q : Type} {c : Catalog} {parameters : Parameters} {q : Statement} {s : ResolvedStatement}

/-- a query without a condition is made, and one with a resolved condition unless one of its tests is at fault -/
theorem query_resolved_fails (h : q.Resolves c parameters s) (f : Factory Q) {clause : Clause}
    {w : Option (Condition Operand)} {d : Option (Condition ResolvedOperand)}
    (hd : resolveOptional c parameters s.scope clause w = .ok d) :
    FailsOnly Fault (query ⟨c, s.target.entity, f⟩ (clause.subject s.aliases) d) := by
  cases w with
  | none =>
    cases hd
    exact .ok _
  | some w =>
    obtain ⟨e, he, hd⟩ := bind_eq_ok.1 hd
    cases hd
    exact query_fails (resolveCondition_located h.follows s.scope_target rfl he)

theorem render_fails (h : q.Resolves c parameters s) (f : Factory Q) : FailsOnly Fault (s.render c f) := by
  have named {p : Path} (hp : ∃ name, propertyName s.aliases p = .ok name) :
      FailsOnly Fault (propertyName s.aliases p) := by
    obtain ⟨name, hname⟩ := hp
    exact hname ▸ .ok name
  have projections : FailsOnly Fault (s.items.mapM (projection s.aliases)) := .mapM fun i hi => by
    obtain ⟨item, -, hitem⟩ := forall₂_right h.items i hi
    obtain ⟨p, hp, -⟩ := Scope.projection_sound (h.follows.enter .select) s.scope_target rfl hitem
    exact hp ▸ .ok p
  have sort : FailsOnly Fault (s.orderBy.mapM fun item =>
      (propertyName s.aliases item.path).map fun name => (⟨name, item.ascending⟩ : SortField)) := .mapM fun i hi => by
    obtain ⟨e, -, he⟩ := forall₂_right h.orderBy i hi
    obtain ⟨name, hname, -⟩ := Scope.propertyName_testable (h.follows.enter .order) s.scope_target rfl he
    exact (named ⟨name, hname⟩).map _
  have groupBy : FailsOnly Fault (s.groupBy.mapM (propertyName s.aliases)) := .mapM fun p hp => by
    obtain ⟨e, -, he⟩ := forall₂_right h.groupBy p hp
    obtain ⟨name, hname, -⟩ := Scope.propertyName_testable h.follows s.scope_target rfl he
    exact named ⟨name, hname⟩
  have filter := query_resolved_fails h f h.filter
  have having := query_resolved_fails h f h.having
  refine projections.bind fun _ _ => filter.bind fun _ _ => ?_
  split
  · exact sort.bind fun _ _ => groupBy.bind fun _ _ => .ok _
  · rename_i hsome
    rw [hsome] at having
    exact (having.map _).bind fun _ _ => sort.bind fun _ _ => groupBy.bind fun _ _ => .ok _

/-- **A query that is resolved is rendered**, unless it tests two properties against each other, or none, or holds a
literal that is not valid for its property. -/
theorem render_resolve_fails (resolved : q.resolve c parameters = .ok s) (f : Factory Q) :
    (∃ r, s.render c f = .ok r) ∨ ∃ e, s.render c f = .error e ∧ Fault e :=
  (render_fails (Statement.resolve_ok resolved) f).cases

/-- Hard hikes are resolved, so nothing else can be wrong with them. -/
theorem hardHikes_fails : ∃ s, hardHikes.resolve hikes [("low", .long 0)] = .ok s ∧
    ((∃ r, s.render hikes Trace.factory = .ok r) ∨ ∃ e, s.render hikes Trace.factory = .error e ∧ Fault e) := by
  obtain ⟨s, hs⟩ := exists_of_isOk (show (hardHikes.resolve hikes [("low", .long 0)]).isOk = true by decide +kernel)
  exact ⟨s, hs, render_resolve_fails hs Trace.factory⟩

end EntitySearch
