/-
Conditions rebuilt as predicate trees, test by test.

A test becomes a leaf if one of its operands names a property of the kind that its clause tests, and the others are
values that the property takes (`Becomes`). If not, it is refused for one reason (`Refuses`), which does not depend on
what stands around it: the first operand that is of the other kind, then the first that is no value where one belongs,
then the first literal that cannot be converted. Every test of a resolved condition is one or the other, in either
clause (`becomes_or_refuses`).

The tree of a condition has And, Or and Not where the condition has them, and the leaves of its tests at their places
(`Condition.image`, `leaves_image`). `condition_rebuilt`: a builder that starts afresh makes that tree if every test
becomes a leaf, and otherwise stops at the first test, in the order of the text, that does not.
-/
import EntitySearch.Proofs.Render.Clause
import EntitySearch.Proofs.Render.Conversion

namespace EntitySearch

/-! ## What becomes of a test -/

/-- the subject that an operand names, if it is of the kind that its clause tests: a property, or an aggregate of one -/
inductive Clause.Names (t : AliasTable) : Clause → ResolvedOperand → Subject → Prop where
  | property {p : Path} {names : List String} (canonical : t.canonical p = .ok names) :
    Names t .filter (.path p) ⟨none, names⟩
  | aggregate {a : AggregatePath} {names : List String} (canonical : t.canonical a.path = .ok names) :
    Names t .having (.aggregate a) ⟨some a.function, names⟩

/-- what is said of an operand of the kind that the other clause tests -/
inductive Clause.Misplaces : Clause → ResolvedOperand → QueryError → Prop where
  | aggregate (a : AggregatePath) : Misplaces .filter (.aggregate a) (.unsupported (.aggregateOutsideHaving a.text))
  | property (p : Path) : Misplaces .having (.path p) (.unsupported (.plainPropertyInHaving p.text))

namespace Site

variable {Q : Type}

/-- the operand is a literal or a parameter, and the subject takes it as the value -/
def Takes (site : Site Q) (s : Subject) (o : ResolvedOperand) (x : Value) : Prop :=
  ∃ v, o.value? = some v ∧ site.convert s v = .ok x

/-- why what stands beside an operand is refused: one is no value, or, all being values, one is not taken; the first -/
inductive Rejects (site : Site Q) (s : Subject) (operand : ResolvedOperand) (values : List ResolvedOperand) :
    QueryError → Prop where
  | operand {before after : List ResolvedOperand} {v : ResolvedOperand} (split : values = before ++ v :: after)
    (earlier : ∀ u ∈ before, ∃ w, u.value? = some w) (no_value : v.value? = none) :
    Rejects site s operand values (.unsupported (.propertyComparison operand.text v.text))
  | literal {before after : List ResolvedOperand} {v : ResolvedOperand} {w : Comparand} {e : QueryError}
    (split : values = before ++ v :: after) (all : ∀ u ∈ values, ∃ w, u.value? = some w)
    (earlier : ∀ u ∈ before, ∃ x, site.Takes s u x) (value : v.value? = some w) (fault : site.convert s w = .error e) :
    Rejects site s operand values e

end Site

namespace Condition

variable {α : Type}

/-- the operand that has to name the property, in a test with one place for it -/
def operand? : Condition α → Option α
  | .between operand .. | .among operand .. | .like operand .. | .isNull operand _ => some operand
  | .and _ | .or _ | .not _ | .compare .. => none

/-- a condition that joins no others -/
inductive IsTest : Condition α → Prop where
  | compare (r : Relation) (left right : α) : IsTest (.compare r left right)
  | between (operand lower upper : α) (negated : Bool) : IsTest (.between operand lower upper negated)
  | among (operand : α) (values : List α) (negated : Bool) : IsTest (.among operand values negated)
  | like (operand pattern : α) (escape : Option Char) (negated : Bool) : IsTest (.like operand pattern escape negated)
  | isNull (operand : α) (negated : Bool) : IsTest (.isNull operand negated)

end Condition

namespace Render

variable {Q : Type}

/-- the leaf, or its negation, that a test becomes -/
inductive Becomes (site : Site Q) (clause : Clause) (t : AliasTable) : Condition ResolvedOperand → Atom → Prop where
  | left {r : Relation} {left right : ResolvedOperand} {s : Subject} {x : Value} (names : clause.Names t left s)
    (value : site.Takes s right x) :
    Becomes site clause t (.compare r left right) ⟨false, s, .compare s.property r x⟩
  | right {r : Relation} {left right : ResolvedOperand} {s : Subject} {x : Value} (value : site.Takes s left x)
    (names : clause.Names t right s) :
    Becomes site clause t (.compare r left right) ⟨false, s, .compare s.property r.converse x⟩
  | between {operand lower upper : ResolvedOperand} {negated : Bool} {s : Subject} {x y : Value}
    (names : clause.Names t operand s) (low : site.Takes s lower x) (high : site.Takes s upper y) :
    Becomes site clause t (.between operand lower upper negated) ⟨negated, s, .range s.property x y⟩
  | among {operand : ResolvedOperand} {values : List ResolvedOperand} {negated : Bool} {s : Subject} {xs : List Value}
    (names : clause.Names t operand s) (taken : List.Forall₂ (site.Takes s) values xs) :
    Becomes site clause t (.among operand values negated) ⟨negated, s, .among s.property xs⟩
  | like {operand pattern : ResolvedOperand} {escape : Option Char} {negated : Bool} {s : Subject} {v : Comparand}
    (names : clause.Names t operand s) (value : pattern.value? = some v) :
    Becomes site clause t (.like operand pattern escape negated) ⟨negated, s, .like s.property v.pattern escape⟩
  | isNull {operand : ResolvedOperand} {negated : Bool} {s : Subject} (names : clause.Names t operand s) :
    Becomes site clause t (.isNull operand negated) ⟨negated, s, .isNull s.property⟩

/-- why a test becomes no leaf -/
inductive Refuses (site : Site Q) (clause : Clause) (t : AliasTable) :
    Condition ResolvedOperand → QueryError → Prop where
  | left {r : Relation} {left right : ResolvedOperand} {e : QueryError} (misplaced : clause.Misplaces left e) :
    Refuses site clause t (.compare r left right) e
  | right {r : Relation} {left right : ResolvedOperand} {e : QueryError}
    (fits : (∃ s, clause.Names t left s) ∨ ∃ v, left.value? = some v) (misplaced : clause.Misplaces right e) :
    Refuses site clause t (.compare r left right) e
  | properties {r : Relation} {left right : ResolvedOperand} {s s' : Subject} (names : clause.Names t left s)
    (names' : clause.Names t right s') :
    Refuses site clause t (.compare r left right) (.unsupported (.propertyComparison left.text right.text))
  | values {r : Relation} {left right : ResolvedOperand} {v w : Comparand} (value : left.value? = some v)
    (value' : right.value? = some w) : Refuses site clause t (.compare r left right) (.unsupported .constantPredicate)
  | rightValue {r : Relation} {left right : ResolvedOperand} {s : Subject} {v : Comparand} {e : QueryError}
    (names : clause.Names t left s) (value : right.value? = some v) (fault : site.convert s v = .error e) :
    Refuses site clause t (.compare r left right) e
  | leftValue {r : Relation} {left right : ResolvedOperand} {s : Subject} {v : Comparand} {e : QueryError}
    (value : left.value? = some v) (names : clause.Names t right s) (fault : site.convert s v = .error e) :
    Refuses site clause t (.compare r left right) e
  | operand {test : Condition ResolvedOperand} {operand : ResolvedOperand} {e : QueryError}
    (about : test.operand? = some operand) (misplaced : clause.Misplaces operand e) : Refuses site clause t test e
  | constant {test : Condition ResolvedOperand} {operand : ResolvedOperand} {v : Comparand}
    (about : test.operand? = some operand) (value : operand.value? = some v) :
    Refuses site clause t test (.unsupported .constantPredicate)
  | between {operand lower upper : ResolvedOperand} {negated : Bool} {s : Subject} {e : QueryError}
    (names : clause.Names t operand s) (rejected : site.Rejects s operand [lower, upper] e) :
    Refuses site clause t (.between operand lower upper negated) e
  | among {operand : ResolvedOperand} {values : List ResolvedOperand} {negated : Bool} {s : Subject} {e : QueryError}
    (names : clause.Names t operand s) (rejected : site.Rejects s operand values e) :
    Refuses site clause t (.among operand values negated) e
  | pattern {operand pattern : ResolvedOperand} {escape : Option Char} {negated : Bool} {s : Subject}
    (names : clause.Names t operand s) (no_value : pattern.value? = none) :
    Refuses site clause t (.like operand pattern escape negated)
      (.unsupported (.propertyComparison operand.text pattern.text))

end Render

/-! ## Operands -/

theorem AliasTable.canonical_of_canonicalNames {t : AliasTable} {p : Path} {names : List String}
    (h : t.canonicalNames p = .ok names) : t.canonical p = .ok names := by
  unfold canonicalNames at h
  split at h <;> cases h
  assumption

namespace Clause

variable {t : AliasTable} {clause clause' : Clause} {o : ResolvedOperand}

theorem Names.subject {s : Subject} (h : clause.Names t o s) : clause.subject t o = .ok (some s) := by
  cases h with
  | property canonical =>
    simp only [Clause.subject, ResolvedOperand.propertySubject, AliasTable.canonicalNames, canonical, ok_bind]
  | aggregate canonical =>
    simp only [Clause.subject, ResolvedOperand.aggregateSubject, AliasTable.canonicalNames, canonical, ok_bind]

theorem Misplaces.subject {e : QueryError} (h : clause.Misplaces o e) : clause.subject t o = .error e := by
  cases h <;> rfl

/-- an operand is of the kind that the clause tests, of the other kind, or a value -/
def Judges (t : AliasTable) (clause : Clause) (o : ResolvedOperand) : Prop :=
  (∃ s, clause.Names t o s) ∨ (∃ e, clause.Misplaces o e) ∨ ∃ v, o.value? = some v

/-- an operand that is found in one clause is judged in both -/
theorem judges_of_subject {found : Option Subject} (h : clause'.subject t o = .ok found) (clause : Clause) :
    clause.Judges t o := by
  cases o with
  | literal text => exact .inr (.inr ⟨_, rfl⟩)
  | parameter name value => exact .inr (.inr ⟨_, rfl⟩)
  | path p =>
    cases clause with
    | having => exact .inr (.inl ⟨_, .property p⟩)
    | filter =>
      cases clause' with
      | having => cases h
      | filter =>
        obtain ⟨names, hnames, -⟩ := bind_eq_ok.1 h
        exact .inl ⟨_, .property (AliasTable.canonical_of_canonicalNames hnames)⟩
  | aggregate a =>
    cases clause with
    | filter => exact .inr (.inl ⟨_, .aggregate a⟩)
    | having =>
      cases clause' with
      | filter => cases h
      | having =>
        obtain ⟨names, hnames, -⟩ := bind_eq_ok.1 h
        exact .inl ⟨_, .aggregate (AliasTable.canonical_of_canonicalNames hnames)⟩

end Clause

namespace Render

variable {Q : Type} {site : Site Q} {clause clause' : Clause} {t : AliasTable} {s : Subject}

theorem comparand_of_no_value {property operand : ResolvedOperand} (h : operand.value? = none) :
    property.comparand operand = .error (.unsupported (.propertyComparison property.text operand.text)) := by
  cases operand with
  | path p => rfl
  | aggregate a => rfl
  | literal text => cases h
  | parameter name value => cases h

theorem sideValues_ok_iff {o : ResolvedOperand} {vs : List ResolvedOperand} {xs : List Value} :
    sideValues site.convert s o vs = .ok xs ↔ List.Forall₂ (site.Takes s) vs xs := by
  simp only [sideValues, bind_eq_ok, mapM_eq_ok]
  constructor
  · rintro ⟨ws, hws, hxs⟩
    exact forall₂_chain (fun _ w _ hv hx => ⟨w, ResolvedOperand.value?_of_comparand hv, hx⟩) hws hxs
  · intro h
    induction h with
    | nil => exact ⟨[], .nil, .nil⟩
    | cons taken _ ih =>
      obtain ⟨w, hw, hx⟩ := taken
      obtain ⟨ws, hws, hxs⟩ := ih
      exact ⟨w :: ws, .cons (comparand_of_value? hw) hws, .cons hx hxs⟩

theorem values_of_comparands {o : ResolvedOperand} {vs : List ResolvedOperand} :
    (∀ v ∈ vs, ∃ w, o.comparand v = .ok w) ↔ ∀ v ∈ vs, ∃ w, v.value? = some w :=
  forall₂_congr fun _ _ => exists_congr fun _ => ⟨ResolvedOperand.value?_of_comparand, comparand_of_value?⟩

/-- All values are looked at before the first is converted. -/
theorem sideValues_error_iff {o : ResolvedOperand} {vs : List ResolvedOperand} {e : QueryError} :
    sideValues site.convert s o vs = .error e ↔ site.Rejects s o vs e := by
  constructor
  · intro h
    rcases bind_eq_error.1 h with fault | ⟨ws, hws, fault⟩
    · obtain ⟨before, v, after, split, earlier, fault⟩ := mapM_eq_error_iff.1 fault
      obtain ⟨no_value, rfl⟩ := comparand_of_fault fault
      exact .operand split (values_of_comparands.1 earlier) no_value
    · rw [mapM_further hws] at fault
      have all : ∀ v ∈ vs, ∃ w, o.comparand v = .ok w := mapM_succeeds.1 ⟨ws, hws⟩
      obtain ⟨before, v, after, split, earlier, fault⟩ := mapM_eq_error_iff.1 fault
      obtain ⟨w, hw⟩ := all v (split ▸ List.mem_append_right _ List.mem_cons_self)
      rw [hw] at fault
      refine .literal split (values_of_comparands.1 all) (fun u hu => ?_) (ResolvedOperand.value?_of_comparand hw) fault
      obtain ⟨x, hx⟩ := earlier u hu
      obtain ⟨w', hw', hx⟩ := bind_eq_ok.1 hx
      exact ⟨x, w', ResolvedOperand.value?_of_comparand hw', hx⟩
  · rintro (⟨split, earlier, no_value⟩ | ⟨split, all, earlier, value, fault⟩)
    · refine bind_eq_error.2 (.inl (mapM_eq_error_iff.2 ⟨_, _, _, split, ?_, comparand_of_no_value no_value⟩))
      exact values_of_comparands.2 earlier
    · obtain ⟨ws, hws⟩ := mapM_succeeds.2 (values_of_comparands (o := o).2 all)
      refine bind_eq_error.2 (.inr ⟨ws, hws, ?_⟩)
      rw [mapM_further hws]
      refine mapM_eq_error_iff.2 ⟨_, _, _, split, fun u hu => ?_, ?_⟩
      · obtain ⟨x, w, hw, hx⟩ := earlier u hu
        exact ⟨x, by rw [comparand_of_value? hw, ok_bind, hx]⟩
      · rw [comparand_of_value? value, ok_bind, fault]

/-! ## Tests -/

variable {test : Condition ResolvedOperand} {e : QueryError}

theorem requireSubject_of_misplaced {o : ResolvedOperand} (h : clause.Misplaces o e) :
    requireSubject (clause.subject t) o = .error e := by
  rw [requireSubject, h.subject]
  rfl

theorem requireSubject_of_value {o : ResolvedOperand} {v : Comparand} (h : o.value? = some v) :
    requireSubject (clause.subject t) o = .error (.unsupported .constantPredicate) := by
  rw [requireSubject, clause.subject_passesValues t h]
  rfl

/-- a test fails with the operand that has to name its property -/
theorem tree_operand {subject : SubjectOf} {o : ResolvedOperand} (about : test.operand? = some o)
    (h : requireSubject subject o = .error e) : tree site subject test = .error e := by
  cases test with
  | and | or | not | compare => cases about
  | between =>
    cases about
    simp only [tree, Atom.between, h]
    rfl
  | among =>
    cases about
    simp only [tree, Atom.among, h]
    rfl
  | like =>
    cases about
    simp only [tree, Atom.like, h]
    rfl
  | isNull =>
    cases about
    simp only [tree, Atom.isNull, h]
    rfl

/-- a range fails as the two values beside its operand do -/
theorem tree_between {subject : SubjectOf} {o lower upper : ResolvedOperand} (h : subject o = .ok (some s))
    (negated : Bool) :
    SameFault (tree site subject (.between o lower upper negated)) (sideValues site.convert s o [lower, upper]) := by
  simp only [tree, Atom.between, requireSubject_of_subject h, sideValues, List.mapM_cons, List.mapM_nil, bind_assoc,
    pure, Except.pure, ok_bind]
  exact .bind_same _ fun _ => .bind_same _ fun _ => .bind_same _ fun _ => .bind_same _ fun _ => .ok trivial

theorem tree_among {subject : SubjectOf} {o : ResolvedOperand} {values : List ResolvedOperand}
    (h : subject o = .ok (some s)) (negated : Bool) :
    tree site subject (.among o values negated) =
      sideValues site.convert s o values >>= fun xs =>
        .ok (Atom.predicate site ⟨negated, s, .among s.property xs⟩) := by
  simp only [tree, Atom.among, requireSubject_of_subject h, sideValues, bind_assoc, ok_bind]

/-- what a test becomes is its tree -/
theorem Becomes.tree {a : Atom} (h : Becomes site clause t test a) :
    tree site (clause.subject t) test = .ok (a.predicate site) := by
  cases h with
  | left names value =>
    obtain ⟨v, hv, hx⟩ := value
    simp only [Render.tree, Atom.compare, orient, names.subject, clause.subject_passesValues t hv,
      comparand_of_value? hv, ok_bind, hx]
  | right value names =>
    obtain ⟨v, hv, hx⟩ := value
    simp only [Render.tree, Atom.compare, orient, names.subject, clause.subject_passesValues t hv,
      comparand_of_value? hv, ok_bind, hx, mirrored_eq_converse]
  | between names low high =>
    obtain ⟨v, hv, hx⟩ := low
    obtain ⟨w, hw, hy⟩ := high
    simp only [Render.tree, Atom.between, requireSubject_of_subject names.subject, comparand_of_value? hv,
      comparand_of_value? hw, ok_bind, hx, hy]
  | among names taken => rw [tree_among names.subject, sideValues_ok_iff.2 taken, ok_bind]
  | like names value =>
    simp only [Render.tree, Atom.like, requireSubject_of_subject names.subject, comparand_of_value? value, ok_bind]
  | isNull names => simp only [Render.tree, Atom.isNull, requireSubject_of_subject names.subject, ok_bind]

/-- a test that is refused has no tree, for that reason -/
theorem Refuses.tree (h : Refuses site clause t test e) : tree site (clause.subject t) test = .error e := by
  cases h with
  | left misplaced =>
    simp only [Render.tree, Atom.compare, orient, misplaced.subject]
    rfl
  | right fits misplaced =>
    rcases fits with ⟨s, names⟩ | ⟨v, value⟩
    · simp only [Render.tree, Atom.compare, orient, names.subject, misplaced.subject]
      rfl
    · simp only [Render.tree, Atom.compare, orient, clause.subject_passesValues t value, misplaced.subject]
      rfl
  | properties names names' =>
    simp only [Render.tree, Atom.compare, orient, names.subject, names'.subject]
    rfl
  | values value value' =>
    simp only [Render.tree, Atom.compare, orient, clause.subject_passesValues t value,
      clause.subject_passesValues t value']
    rfl
  | rightValue names value fault =>
    simp only [Render.tree, Atom.compare, orient, names.subject, clause.subject_passesValues t value,
      comparand_of_value? value, ok_bind, fault]
    rfl
  | leftValue value names fault =>
    simp only [Render.tree, Atom.compare, orient, names.subject, clause.subject_passesValues t value,
      comparand_of_value? value, ok_bind, fault]
    rfl
  | operand about misplaced => exact tree_operand about (requireSubject_of_misplaced misplaced)
  | constant about value => exact tree_operand about (requireSubject_of_value value)
  | between names rejected => exact (tree_between names.subject _).fails (sideValues_error_iff.2 rejected)
  | among names rejected =>
    rw [tree_among names.subject, sideValues_error_iff.2 rejected]
    rfl
  | pattern names no_value =>
    simp only [Render.tree, Atom.like, requireSubject_of_subject names.subject, comparand_of_no_value no_value, ok_bind]
    rfl

theorem compare_becomes_or_refuses {r : Relation} {left right : ResolvedOperand} (hl : clause.Judges t left)
    (hr : clause.Judges t right) :
    (∃ a, Becomes site clause t (.compare r left right) a) ∨ ∃ e, Refuses site clause t (.compare r left right) e := by
  rcases hl with ⟨s, names⟩ | ⟨e, misplaced⟩ | ⟨v, value⟩
  · rcases hr with ⟨s', names'⟩ | ⟨e, misplaced⟩ | ⟨v, value⟩
    · exact .inr ⟨_, .properties names names'⟩
    · exact .inr ⟨e, .right (.inl ⟨s, names⟩) misplaced⟩
    · cases hx : site.convert s v with
      | error e => exact .inr ⟨e, .rightValue names value hx⟩
      | ok x => exact .inl ⟨_, .left names ⟨v, value, hx⟩⟩
  · exact .inr ⟨e, .left misplaced⟩
  · rcases hr with ⟨s, names⟩ | ⟨e, misplaced⟩ | ⟨w, value'⟩
    · cases hx : site.convert s v with
      | error e => exact .inr ⟨e, .leftValue value names hx⟩
      | ok x => exact .inl ⟨_, .right ⟨v, value, hx⟩ names⟩
    · exact .inr ⟨e, .right (.inr ⟨v, value⟩) misplaced⟩
    · exact .inr ⟨_, .values value value'⟩

/-- **Every test becomes a leaf or is refused.** -/
theorem becomes_or_refuses (single : test.IsTest) (judged : ∀ o ∈ test.operands, clause.Judges t o) :
    (∃ a, Becomes site clause t test a) ∨ ∃ e, Refuses site clause t test e := by
  have named {o : ResolvedOperand} (ho : o ∈ test.operands) (about : test.operand? = some o) :
      (∃ s, clause.Names t o s) ∨ ∃ e, Refuses site clause t test e := by
    rcases judged o ho with ⟨s, names⟩ | ⟨e, misplaced⟩ | ⟨v, value⟩
    · exact .inl ⟨s, names⟩
    · exact .inr ⟨e, .operand about misplaced⟩
    · exact .inr ⟨_, .constant about value⟩
  cases single with
  | compare r left right =>
    exact compare_becomes_or_refuses (judged left (by simp [Condition.operands]))
      (judged right (by simp [Condition.operands]))
  | between operand lower upper negated =>
    rcases named (by simp [Condition.operands]) rfl with ⟨s, names⟩ | refused
    · cases hxs : sideValues site.convert s operand [lower, upper] with
      | error e => exact .inr ⟨e, .between names (sideValues_error_iff.1 hxs)⟩
      | ok xs =>
        obtain _ | ⟨low, _ | ⟨high, ⟨⟩⟩⟩ := sideValues_ok_iff.1 hxs
        exact .inl ⟨_, .between names low high⟩
    · exact .inr refused
  | among operand values negated =>
    rcases named (by simp [Condition.operands]) rfl with ⟨s, names⟩ | refused
    · cases hxs : sideValues site.convert s operand values with
      | error e => exact .inr ⟨e, .among names (sideValues_error_iff.1 hxs)⟩
      | ok xs => exact .inl ⟨_, .among names (sideValues_ok_iff.1 hxs)⟩
    · exact .inr refused
  | like operand pattern escape negated =>
    rcases named (by simp [Condition.operands]) rfl with ⟨s, names⟩ | refused
    · cases hv : pattern.value? with
      | none => exact .inr ⟨_, .pattern names hv⟩
      | some v => exact .inl ⟨_, .like names hv⟩
    · exact .inr refused
  | isNull operand negated =>
    rcases named (by simp [Condition.operands]) rfl with ⟨s, names⟩ | refused
    · exact .inl ⟨_, .isNull names⟩
    · exact .inr refused

/-- a test has a tree exactly if it becomes a leaf -/
theorem becomes_iff (single : test.IsTest) (judged : ∀ o ∈ test.operands, clause.Judges t o) :
    (∃ a, Becomes site clause t test a) ↔ ∃ p, tree site (clause.subject t) test = .ok p := by
  constructor
  · rintro ⟨a, becomes⟩
    exact ⟨_, becomes.tree⟩
  · rintro ⟨p, hp⟩
    refine (becomes_or_refuses single judged).resolve_right ?_
    rintro ⟨e, refused⟩
    cases hp.symm.trans refused.tree

theorem refuses_iff (single : test.IsTest) (judged : ∀ o ∈ test.operands, clause.Judges t o) :
    Refuses site clause t test e ↔ tree site (clause.subject t) test = .error e := by
  refine ⟨Refuses.tree, fun h => ?_⟩
  rcases becomes_or_refuses single judged with ⟨a, becomes⟩ | ⟨e', refused⟩
  · cases h.symm.trans becomes.tree
  · cases h.symm.trans refused.tree
    exact refused

end Render

/-! ## Whole conditions -/

namespace Condition

variable {α Q : Type}

mutual

theorem isTest_of_mem_tests : ∀ (c : Condition α) {test : Condition α}, test ∈ c.tests → test.IsTest
  | .and cs, _, h => isTest_of_mem_testsOf cs h
  | .or cs, _, h => isTest_of_mem_testsOf cs h
  | .not c, _, h => isTest_of_mem_tests c h
  | .compare .., _, h => List.mem_singleton.1 h ▸ .compare ..
  | .between .., _, h => List.mem_singleton.1 h ▸ .between ..
  | .among .., _, h => List.mem_singleton.1 h ▸ .among ..
  | .like .., _, h => List.mem_singleton.1 h ▸ .like ..
  | .isNull .., _, h => List.mem_singleton.1 h ▸ .isNull ..

theorem isTest_of_mem_testsOf : ∀ (cs : List (Condition α)) {test : Condition α}, test ∈ testsOf cs → test.IsTest
  | [], _, h => nomatch h
  | c :: rest, _, h => (List.mem_append.1 h).elim (isTest_of_mem_tests c) (isTest_of_mem_testsOf rest)

end

theorem mem_operands_of_tests {c test : Condition α} (h : test ∈ c.tests) {o : α} (ho : o ∈ test.operands) :
    o ∈ c.operands := by
  rw [operands_tests]
  exact List.mem_flatMap.2 ⟨test, h, ho⟩

mutual

/-- And, Or and Not as in the condition, with a tree in the place of each test -/
def image (leaf : Condition α → Predicate Q) : Condition α → Predicate Q
  | .and cs => .and (images leaf cs)
  | .or cs => .or (images leaf cs)
  | .not c => .not (some (image leaf c))
  | .compare r left right => leaf (.compare r left right)
  | .between operand lower upper negated => leaf (.between operand lower upper negated)
  | .among operand values negated => leaf (.among operand values negated)
  | .like operand pattern escape negated => leaf (.like operand pattern escape negated)
  | .isNull operand negated => leaf (.isNull operand negated)

def images (leaf : Condition α → Predicate Q) : List (Condition α) → List (Predicate Q)
  | [] => []
  | c :: rest => image leaf c :: images leaf rest

end

variable {leaf : Condition α → Predicate Q}

mutual

/-- the leaves stand in the order of the tests, whatever joins them -/
theorem leaves_image : ∀ c : Condition α, (c.image leaf).leaves = c.tests.flatMap fun test => (leaf test).leaves
  | .and cs => leaves_images cs
  | .or cs => leaves_images cs
  | .not c => leaves_image c
  | .compare .. => (List.append_nil _).symm
  | .between .. => (List.append_nil _).symm
  | .among .. => (List.append_nil _).symm
  | .like .. => (List.append_nil _).symm
  | .isNull .. => (List.append_nil _).symm

theorem leaves_images : ∀ cs : List (Condition α),
    Predicate.leavesOf (images leaf cs) = (testsOf cs).flatMap fun test => (leaf test).leaves
  | [] => rfl
  | c :: rest => by
    rw [images, Predicate.leavesOf, testsOf, List.flatMap_append, leaves_image c, leaves_images rest]

end

end Condition

/-- the leaf of the test itself, without the negation around it -/
def Atom.leaf {Q : Type} (site : Site Q) (a : Atom) : Predicate.Leaf Q :=
  ⟨a.test, a.subject.aggregation, site.factory.leaf site.entity a.subject.aggregation a.test⟩

theorem Atom.leaves_predicate {Q : Type} (site : Site Q) (a : Atom) : (a.predicate site).leaves = [a.leaf site] := by
  cases h : a.negated <;> simp [predicate, h, Predicate.leaves, leaf]

namespace Render

variable {Q : Type} {site : Site Q} {subject : SubjectOf}

theorem tree_sequential : Sequential (tree site subject) (trees site subject) where
  and _ := (SameFault.refl _).made _
  or _ := (SameFault.refl _).made _
  not _ := (SameFault.refl _).made _
  nil := .ok trivial
  cons _ _ := .bind_same _ fun _ => .bind_same _ fun _ => .ok trivial

variable {leaf : Condition ResolvedOperand → Predicate Q}

mutual

/-- the tree of a condition is put together from those of its tests -/
theorem tree_image : ∀ c : Condition ResolvedOperand,
    (∀ test ∈ c.tests, tree site subject test = .ok (leaf test)) → tree site subject c = .ok (c.image leaf)
  | .and cs, h => by
    rw [tree, trees_images cs h]
    rfl
  | .or cs, h => by
    rw [tree, trees_images cs h]
    rfl
  | .not c, h => by
    rw [tree, tree_image c h]
    rfl
  | .compare .., h => h _ List.mem_cons_self
  | .between .., h => h _ List.mem_cons_self
  | .among .., h => h _ List.mem_cons_self
  | .like .., h => h _ List.mem_cons_self
  | .isNull .., h => h _ List.mem_cons_self

theorem trees_images : ∀ cs : List (Condition ResolvedOperand),
    (∀ test ∈ Condition.testsOf cs, tree site subject test = .ok (leaf test)) →
      trees site subject cs = .ok (Condition.images leaf cs)
  | [], _ => rfl
  | c :: rest, h => by
    rw [Condition.testsOf, List.forall_mem_append] at h
    rw [trees, tree_image c h.1, trees_images rest h.2]
    rfl

end

/-- what a builder that starts afresh makes of a condition, in a clause: how that ends, and the draft behind it -/
def afresh (site : Site Q) (clause : Clause) (t : AliasTable) (w : Condition ResolvedOperand) :
    Except QueryError Unit × Draft Q :=
  (condition site (clause.subject t) w).run.run Draft.initial

variable {clause : Clause} {t : AliasTable} {w : Condition ResolvedOperand}

/-- where every test becomes a leaf, the draft is the root over the tree, and can be finished -/
theorem afresh_becomes {atom : Condition ResolvedOperand → Atom}
    (h : ∀ test ∈ w.tests, Becomes site clause t test (atom test)) :
    afresh site clause t w = (.ok (), ⟨[], .root (some (w.image fun test => (atom test).predicate site))⟩) :=
  condition_initial (tree_image w fun test ht => (h test ht).tree)

/-- where some test becomes none, the first that does not decides how building ends -/
theorem afresh_refuses (judged : ∀ o ∈ w.operands, clause.Judges t o)
    (h : ¬ ∀ test ∈ w.tests, ∃ a, Becomes site clause t test a) :
    ∃ before test after e, w.tests = before ++ test :: after ∧ (∀ u ∈ before, ∃ a, Becomes site clause t u a) ∧
      (¬ ∃ a, Becomes site clause t test a) ∧ (∀ e', Refuses site clause t test e' ↔ e' = e) ∧
      (afresh site clause t w).1 = .error e := by
  have becomes {test : Condition ResolvedOperand} (ht : test ∈ w.tests) :
      (∃ a, Becomes site clause t test a) ↔ ∃ p, tree site (clause.subject t) test = .ok p :=
    becomes_iff (w.isTest_of_mem_tests ht) fun o ho => judged o (Condition.mem_operands_of_tests ht ho)
  have refuses {test : Condition ResolvedOperand} (ht : test ∈ w.tests) {e : QueryError} :
      Refuses site clause t test e ↔ tree site (clause.subject t) test = .error e :=
    refuses_iff (w.isTest_of_mem_tests ht) fun o ho => judged o (Condition.mem_operands_of_tests ht ho)
  cases hps : w.tests.mapM (tree site (clause.subject t)) with
  | ok ps => exact absurd (fun test ht => (becomes ht).2 (mapM_succeeds.1 ⟨ps, hps⟩ test ht)) h
  | error e =>
    obtain ⟨before, test, after, split, earlier, fault⟩ := mapM_eq_error_iff.1 hps
    have ht : test ∈ w.tests := split ▸ List.mem_append_right _ List.mem_cons_self
    have before_mem {u : Condition ResolvedOperand} (hu : u ∈ before) : u ∈ w.tests := split ▸ List.mem_append_left _ hu
    refine ⟨before, test, after, e, split, fun u hu => (becomes (before_mem hu)).2 (earlier u hu), ?_, fun e' => ?_,
      condition_initial_error ((tree_sequential.tests w).fails hps)⟩
    · rw [becomes ht, fault]
      rintro ⟨p, ⟨⟩⟩
    · rw [refuses ht, fault, Except.error.injEq, eq_comm]

end Render

open Render

variable {Q : Type} {c : Catalog} {parameters : Parameters} {q : Statement} {s : ResolvedStatement}
  {w : Condition ResolvedOperand}

/-- the operands of a resolved query are judged in either clause -/
theorem resolved_judges (resolved : q.resolve c parameters = .ok s) (given : s.filter = some w ∨ s.having = some w)
    (clause : Clause) : ∀ o ∈ w.operands, clause.Judges s.aliases o := by
  have parts := Statement.resolve_ok resolved
  have judged {clause' : Clause} {written : Option (Condition Operand)} {d : Option (Condition ResolvedOperand)}
      (hd : resolveOptional c parameters s.scope clause' written = .ok d) (hw : d = some w) :
      ∀ o ∈ w.operands, clause.Judges s.aliases o := by
    subst hw
    cases written with
    | none => cases hd
    | some written =>
      obtain ⟨_, hr, h⟩ := bind_eq_ok.1 hd
      cases h
      intro o ho
      obtain ⟨found, hfound, -⟩ := resolveCondition_located parts.follows s.scope_target rfl hr o ho
      exact Clause.judges_of_subject hfound clause
  rcases given with hw | hw
  · exact judged parts.filter hw
  · exact judged parts.having hw

/-- **A condition is rebuilt test by test.** Whichever clause of a resolved query it is from, and for whichever clause
it is built: if every test becomes a leaf, building succeeds, every scope is closed, and the finished predicate is the
root over the tree of the condition, with the leaves in the order of the tests. If not, building ends with the one fault
of the first test that becomes none. -/
theorem condition_rebuilt (resolved : q.resolve c parameters = .ok s) (given : s.filter = some w ∨ s.having = some w)
    (site : Site Q) (clause : Clause) :
    (∀ atom : Condition ResolvedOperand → Atom,
      (∀ test ∈ w.tests, Becomes site clause s.aliases test (atom test)) →
        let tree := w.image fun test => (atom test).predicate site
        ∃ draft, afresh site clause s.aliases w = (.ok (), draft) ∧ draft.depth = 0 ∧
          draft.finish = .ok (.root (some tree)) ∧ tree.leaves = w.tests.map fun test => (atom test).leaf site) ∧
    ((¬ ∀ test ∈ w.tests, ∃ a, Becomes site clause s.aliases test a) →
      ∃ before test after e, w.tests = before ++ test :: after ∧
        (∀ earlier ∈ before, ∃ a, Becomes site clause s.aliases earlier a) ∧
        (¬ ∃ a, Becomes site clause s.aliases test a) ∧
        (∀ e', Refuses site clause s.aliases test e' ↔ e' = e) ∧
        (afresh site clause s.aliases w).1 = .error e) := by
  constructor
  · intro atom becomes
    refine ⟨_, afresh_becomes becomes, rfl, rfl, ?_⟩
    simp only [Condition.leaves_image, Atom.leaves_predicate, List.map_eq_flatMap]
  · exact afresh_refuses (resolved_judges resolved given clause)

/-- paths of hikes, as they are resolved in `hardHikes` -/
def difficultyPath : Path := ⟨⟨"Hike", []⟩, none, [⟨"difficulty", none⟩]⟩

def altitudePath : Path := ⟨⟨"Hike", ["start"]⟩, some "s", [⟨"altitude", none⟩]⟩

/-- the condition in WHERE of `hardHikes`, resolved -/
def hardFilter : Condition ResolvedOperand :=
  .and [.compare .less (.literal "3") (.path difficultyPath),
    .not (.among (.path altitudePath) [.parameter "low" (.long 0), .literal "-5"] true)]

/-- where hard hikes are looked for -/
def hardSite : Site Trace := ⟨hikes, "Hike", Trace.factory⟩

/-- what the tests of hard hikes become -/
def hardAtom : Condition ResolvedOperand → Atom
  | .compare .. => ⟨false, ⟨none, ["difficulty"]⟩, .compare "difficulty" .greater (.long 3)⟩
  | _ => ⟨true, ⟨none, ["start", "altitude"]⟩, .among "start.altitude" [.long 0, .long (-5)]⟩

/-- The tests of hard hikes become leaves in WHERE; in HAVING the first of them would not. -/
theorem hardHikes_rebuilt : ∃ s, hardHikes.resolve hikes [("low", .long 0)] = .ok s ∧ s.filter = some hardFilter ∧
    (∃ draft, afresh hardSite .filter s.aliases hardFilter = (.ok (), draft) ∧
      draft.finish = .ok (.root (some (.and [
        Atom.predicate hardSite ⟨false, ⟨none, ["difficulty"]⟩, .compare "difficulty" .greater (.long 3)⟩,
        .not (some (Atom.predicate hardSite
          ⟨true, ⟨none, ["start", "altitude"]⟩, .among "start.altitude" [.long 0, .long (-5)]⟩))])))) ∧
    (afresh hardSite .having s.aliases hardFilter).1 = .error (.unsupported (.plainPropertyInHaving "difficulty")) := by
  have known : (hardHikes.resolve hikes [("low", .long 0)]).toOption.map (fun s => (s.filter,
      (s.aliases.canonical difficultyPath).toOption, (s.aliases.canonical altitudePath).toOption)) =
      some (some hardFilter, some ["difficulty"], some ["start", "altitude"]) := by
    decide +kernel
  obtain ⟨s, hs, parts⟩ := Option.map_eq_some_iff.1 known
  simp only [Prod.mk.injEq] at parts
  obtain ⟨filter, difficulty, altitude⟩ := parts
  have resolved := toOption_eq_some.1 hs
  have becomes : ∀ test ∈ hardFilter.tests, Becomes hardSite .filter s.aliases test (hardAtom test) := by
    have three : hardSite.convert ⟨none, ["difficulty"]⟩ (.literal "3") = .ok (.long 3) :=
      toOption_eq_some.1 (by decide +kernel)
    have minus_five : hardSite.convert ⟨none, ["start", "altitude"]⟩ (.literal "-5") = .ok (.long (-5)) :=
      toOption_eq_some.1 (by decide +kernel)
    refine List.forall_mem_cons.2 ⟨?_, List.forall_mem_singleton.2 ?_⟩
    · exact .right ⟨_, rfl, three⟩ (.property (toOption_eq_some.1 difficulty))
    · exact .among (.property (toOption_eq_some.1 altitude)) (.cons ⟨_, rfl, rfl⟩ (.cons ⟨_, rfl, minus_five⟩ .nil))
  obtain ⟨draft, done, -, finish, -⟩ := (condition_rebuilt resolved (.inl filter) hardSite .filter).1 hardAtom becomes
  have none_becomes :
      ¬ ∃ a, Becomes hardSite .having s.aliases (.compare .less (.literal "3") (.path difficultyPath)) a := by
    rintro ⟨a, becomes⟩
    cases becomes with
    | left names => cases names
    | right _ names => cases names
  obtain ⟨before, test, after, e, split, earlier, -, fault, ends⟩ :=
    (condition_rebuilt resolved (.inl filter) hardSite .having).2 fun all => none_becomes (all _ List.mem_cons_self)
  refine ⟨s, resolved, filter, ⟨draft, done, finish⟩, ?_⟩
  cases before with
  | cons u before =>
    obtain ⟨rfl, -⟩ := List.cons.inj split
    exact absurd (earlier _ List.mem_cons_self) none_becomes
  | nil =>
    obtain ⟨rfl, -⟩ := List.cons.inj split
    have text : difficultyPath.text = "difficulty" := by decide +kernel
    rw [ends, ← (fault _).1 (.right (.inr ⟨_, rfl⟩) (.property difficultyPath)), text]

end EntitySearch
