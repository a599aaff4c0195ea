/-
The operands of the conditions in a clause.

An operand as it is written either refers to a property, perhaps under an aggregation, or gives a value
(`Operand.reference`, `Operand.given`). `resolveOperand_ok` says that the operand it is resolved to stands for the same,
and that the property may be tested. For a whole condition this gives `Located`: the subject of every operand is found,
and is a property of that kind. What the tests of a condition have in common, its tree has: `tree_induct` is induction
over the trees of conditions, whose tests are of subjects found among the operands.
-/
import EntitySearch.Proofs.Render.Meaning
import EntitySearch.Proofs.Resolve.Statement
import EntitySearch.Proofs.Resolve.Traverse

namespace EntitySearch

/-- the property to which an operand refers, and the aggregation under which it stands -/
def Operand.reference : Operand → Option (Option Aggregation × PathExpr)
  | .path p => some (none, p)
  | .aggregate a => some (some (.of a.function a.distinct), a.path)
  | _ => none

/-- the value that is written, or that is given to the parameter -/
def Operand.given (parameters : Parameters) : Operand → Option Comparand
  | .literal l => some (.literal l.text)
  | .named name => (parameters.lookup name).map .parameter
  | _ => none

/-- how the subjects in a clause are found -/
def Clause.subject (t : AliasTable) : Clause → Render.SubjectOf
  | .filter => ResolvedOperand.propertySubject t
  | .having => ResolvedOperand.aggregateSubject t

theorem Clause.subject_passesValues (t : AliasTable) (clause : Clause) : Render.PassesValues (clause.subject t) := by
  cases clause with
  | filter => exact Render.propertySubject_passesValues t
  | having => exact Render.aggregateSubject_passesValues t

/-! ## Single operands -/

namespace Scope

variable {c : Catalog} {s : Scope} {naming : Naming} {target : Target} {parameters : Parameters} {clause : Clause}

/-- what an operand that is resolved in a clause stands for, beside the written one -/
inductive Matches (c : Catalog) (entity : String) (naming : Naming) (parameters : Parameters)
    (subject : Render.SubjectOf) (o : Operand) (r : ResolvedOperand) : Prop where
  | property {f : Option Aggregation} {e : PathExpr} (reference : o.reference = some (f, e))
      (subject : subject r = .ok (some ⟨f, naming.expand e.segments⟩))
      (testable : c.Testable entity (naming.expand e.segments))
  | value {v : Comparand} (reference : o.reference = none) (given : o.given parameters = some v)
      (value : r.value? = some v)

/-- **A resolved operand stands for what is written**, and is of a kind that its clause has a place for. -/
theorem resolveOperand_ok (h : s.Follows c naming) (ht : s.target = some target) (outside : s.inSelect = false)
    {o : Operand} {r : ResolvedOperand} (ho : s.resolveOperand c parameters clause o = .ok r) :
    Matches c target.entity naming parameters (clause.subject s.aliases) o r := by
  cases o with
  | path e =>
    cases clause with
    | having => cases ho
    | filter =>
      obtain ⟨p, hp, ho⟩ := bind_eq_ok.1 ho
      cases ho
      obtain ⟨canonical, testable⟩ := resolveProperty_testable h ht outside hp
      refine .property rfl ?_ testable
      simp only [Clause.subject, ResolvedOperand.propertySubject, canonical, ok_bind]
  | aggregate a =>
    cases clause with
    | filter => cases ho
    | having =>
      obtain ⟨path, hpath, ho⟩ := bind_eq_ok.1 ho
      cases ho
      obtain ⟨p, hp, hpath⟩ := bind_eq_ok.1 hpath
      cases hpath
      obtain ⟨canonical, testable⟩ := resolveProperty_testable h ht outside hp
      refine .property rfl ?_ testable
      simp only [Clause.subject, ResolvedOperand.aggregateSubject, canonical, ok_bind]
  | literal l =>
    cases ho
    exact .value rfl rfl rfl
  | named name =>
    simp only [resolveOperand] at ho
    split at ho
    · rename_i value hvalue
      cases ho
      exact .value rfl (by simp [Operand.given, hvalue]) rfl
    · cases ho
  | positional number => cases ho

end Scope

/-! ## Whole conditions -/

namespace Render

/-- the subject of an operand is found, and is a property that may be tested, or there is none -/
def Located (c : Catalog) (entity : String) (subject : SubjectOf) (o : ResolvedOperand) : Prop :=
  ∃ found, subject o = .ok found ∧ ∀ s ∈ found, c.Testable entity s.path

end Render

/-- every operand of a resolved condition is located -/
theorem resolveCondition_located {c : Catalog} {s : Scope} {naming : Naming} {target : Target}
    {parameters : Parameters} {clause : Clause} (h : s.Follows c naming) (ht : s.target = some target)
    (outside : s.inSelect = false) {w : Condition Operand} {r : Condition ResolvedOperand}
    (hr : s.resolveCondition c parameters clause w = .ok r) :
    ∀ o ∈ r.operands, Render.Located c target.entity (clause.subject s.aliases) o := by
  refine Condition.traverse_operands (fun o o' ho => ?_) w hr
  cases Scope.resolveOperand_ok h ht outside ho with
  | property _ found testable => exact ⟨_, found, by simpa using testable⟩
  | value _ _ value => exact ⟨none, clause.subject_passesValues s.aliases value, by simp⟩

/-! ## The tests of a tree -/

/-- the test is of a subject found among the operands -/
def Atom.From (subject : Render.SubjectOf) (operands : List ResolvedOperand) (a : Atom) : Prop :=
  (∃ o ∈ operands, subject o = .ok (some a.subject)) ∧ a.test.property = a.subject.property

namespace Atom

open Render

variable {convert : Conversion} {subject : SubjectOf} {a : Atom}

theorem compare_from {r : Relation} {left right : ResolvedOperand}
    (h : Atom.compare convert subject r left right = .ok a) : a.From subject [left, right] := by
  simp only [Atom.compare, bind_eq_ok, Except.ok.injEq] at h
  obtain ⟨⟨s, r', v⟩, horient, x, -, rfl⟩ := h
  rcases orient_ok horient with ⟨hs, -⟩ | ⟨-, hs, -⟩
  · exact ⟨⟨left, by simp, hs⟩, rfl⟩
  · exact ⟨⟨right, by simp, hs⟩, rfl⟩

theorem between_from {operand lower upper : ResolvedOperand} {negated : Bool}
    (h : Atom.between convert subject operand lower upper negated = .ok a) :
    a.From subject [operand, lower, upper] := by
  simp only [Atom.between, bind_eq_ok, Except.ok.injEq] at h
  obtain ⟨s, hs, _, -, _, -, _, -, _, -, rfl⟩ := h
  exact ⟨⟨operand, by simp, requireSubject_ok hs⟩, rfl⟩

theorem among_from {operand : ResolvedOperand} {values : List ResolvedOperand} {negated : Bool}
    (h : Atom.among convert subject operand values negated = .ok a) : a.From subject (operand :: values) := by
  simp only [Atom.among, bind_eq_ok, Except.ok.injEq] at h
  obtain ⟨s, hs, _, -, _, -, rfl⟩ := h
  exact ⟨⟨operand, by simp, requireSubject_ok hs⟩, rfl⟩

theorem like_from {operand pattern : ResolvedOperand} {escape : Option Char} {negated : Bool}
    (h : Atom.like subject operand pattern escape negated = .ok a) : a.From subject [operand, pattern] := by
  simp only [Atom.like, bind_eq_ok, Except.ok.injEq] at h
  obtain ⟨s, hs, _, -, rfl⟩ := h
  exact ⟨⟨operand, by simp, requireSubject_ok hs⟩, rfl⟩

theorem isNull_from {operand : ResolvedOperand} {negated : Bool} (h : Atom.isNull subject operand negated = .ok a) :
    a.From subject [operand] := by
  simp only [Atom.isNull, bind_eq_ok, Except.ok.injEq] at h
  obtain ⟨s, hs, rfl⟩ := h
  exact ⟨⟨operand, by simp, requireSubject_ok hs⟩, rfl⟩

theorem From.mono {as bs : List ResolvedOperand} (h : a.From subject as) (hs : ∀ o ∈ as, o ∈ bs) :
    a.From subject bs :=
  let ⟨⟨o, ho, found⟩, hproperty⟩ := h
  ⟨⟨o, hs o ho, found⟩, hproperty⟩

end Atom

/-- what holds of trees holds of every tree that And, Or and Not make of them -/
structure Predicate.Closed {Q : Type} (P : Predicate Q → Prop) : Prop where
  and : ∀ {ps}, (∀ p ∈ ps, P p) → P (.and ps)
  or : ∀ {ps}, (∀ p ∈ ps, P p) → P (.or ps)
  not : ∀ {p}, P p → P (.not (some p))

/-- what holds of every leaf does so of the leaves of what is made -/
theorem Predicate.closed_leaves {Q : Type} (P : Leaf Q → Prop) : Closed fun p => ∀ l ∈ p.leaves, P l where
  and h l hl := let ⟨p, hp, hl⟩ := mem_leavesOf.1 hl; h p hp l hl
  or h l hl := let ⟨p, hp, hl⟩ := mem_leavesOf.1 hl; h p hp l hl
  not h := h

namespace Render

variable {Q : Type} {site : Site Q} {subject : SubjectOf} {P : Predicate Q → Prop}

mutual

/-- **Induction over the trees of conditions**: what holds of the tests of a condition holds of its tree. -/
theorem tree_induct (closed : Predicate.Closed P) : ∀ (c : Condition ResolvedOperand) {p : Predicate Q},
    (∀ a : Atom, a.From subject c.operands → P (a.predicate site)) → tree site subject c = .ok p → P p
  | .and cs, p, atom, h => by
    obtain ⟨ps, hps, h⟩ := bind_eq_ok.1 h
    cases h
    exact closed.and (trees_induct closed cs atom hps)
  | .or cs, p, atom, h => by
    obtain ⟨ps, hps, h⟩ := bind_eq_ok.1 h
    cases h
    exact closed.or (trees_induct closed cs atom hps)
  | .not c, p, atom, h => by
    obtain ⟨inner, hinner, h⟩ := bind_eq_ok.1 h
    cases h
    exact closed.not (tree_induct closed c atom hinner)
  | .compare r left right, p, atom, h => by
    obtain ⟨a, ha, h⟩ := bind_eq_ok.1 h
    cases h
    exact atom a (Atom.compare_from ha)
  | .between operand lower upper negated, p, atom, h => by
    obtain ⟨a, ha, h⟩ := bind_eq_ok.1 h
    cases h
    exact atom a (Atom.between_from ha)
  | .among operand values negated, p, atom, h => by
    obtain ⟨a, ha, h⟩ := bind_eq_ok.1 h
    cases h
    exact atom a (Atom.among_from ha)
  | .like operand pattern escape negated, p, atom, h => by
    obtain ⟨a, ha, h⟩ := bind_eq_ok.1 h
    cases h
    exact atom a (Atom.like_from ha)
  | .isNull operand negated, p, atom, h => by
    obtain ⟨a, ha, h⟩ := bind_eq_ok.1 h
    cases h
    exact atom a (Atom.isNull_from ha)

theorem trees_induct (closed : Predicate.Closed P) :
    ∀ (cs : List (Condition ResolvedOperand)) {ps : List (Predicate Q)},
      (∀ a : Atom, a.From subject (Condition.operandsOf cs) → P (a.predicate site)) →
        trees site subject cs = .ok ps → ∀ p ∈ ps, P p
  | [], ps, _, h => by
    cases h
    simp
  | c :: rest, ps, atom, h => by
    simp only [trees, bind_eq_ok, Except.ok.injEq] at h
    obtain ⟨p, hp, qs, hqs, rfl⟩ := h
    refine List.forall_mem_cons.2 ⟨?_, ?_⟩
    · exact tree_induct closed c (fun a ha => atom a (ha.mono fun o ho => List.mem_append_left _ ho)) hp
    · exact trees_induct closed rest (fun a ha => atom a (ha.mono fun o ho => List.mem_append_right _ ho)) hqs

end

end Render

end EntitySearch
