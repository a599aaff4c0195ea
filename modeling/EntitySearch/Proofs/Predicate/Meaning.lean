/-
What predicate trees and the queries made of them mean.

Atomic conditions are tests of a property or of an aggregate of one. A `Valuation` gives a truth value to every positive
one of them, a test with `<>` being the negation of the same test with `=`. Over a valuation a tree has its Boolean
meaning (`Predicate.Holds`), and a query that a factory makes has one as soon as the calls of the factory are read as
they are meant (`Interprets`): a conjunction as all of what must hold and none of what must not.

`render_holds`: the query of a tree means what the tree means. A Not directly under an And is not rendered as a
negation but joins what must not hold; this is where both come to the same.
-/
import EntitySearch.Predicate.Tree
import EntitySearch.Proofs.Outcome

namespace EntitySearch

/-- truth values of the positive tests -/
abbrev Valuation := Option Aggregation → Test → Prop

/-- the truth of a test; one with `<>` is the negation of the one with `=` -/
def Valuation.holds (ν : Valuation) (f : Option Aggregation) : Test → Prop
  | .compare p .notEqual v => ¬ ν f (.compare p .equal v)
  | t => ν f t

/-- queries of a factory are read as its calls are meant, over the truth values of tests -/
structure Interprets {Q : Type} (f : Factory Q) (entity : String) (truth : Option Aggregation → Test → Prop)
    (holds : Q → Prop) : Prop where
  matchAll : holds (f.matchAll entity)
  leaf : ∀ a t, holds (f.leaf entity a t) ↔ truth a t
  and : ∀ must mustNot, holds (f.and must mustNot) ↔ (∀ q ∈ must, holds q) ∧ ∀ q ∈ mustNot, ¬ holds q
  or : ∀ qs, holds (f.or qs) ↔ ∃ q ∈ qs, holds q
  not : ∀ q, holds (f.not q) ↔ ¬ holds q

namespace Predicate

variable {Q : Type}

/-! ## Leaves -/

/-- what a leaf holds -/
structure Leaf (Q : Type) where
  test : Test
  aggregation : Option Aggregation
  query : Q

mutual

/-- the leaves of a tree, in order -/
def leaves : Predicate Q → List (Leaf Q)
  | .root none => []
  | .root (some p) => leaves p
  | .and children => leavesOf children
  | .or children => leavesOf children
  | .not none => []
  | .not (some p) => leaves p
  | .leaf t a q => [⟨t, a, q⟩]

def leavesOf : List (Predicate Q) → List (Leaf Q)
  | [] => []
  | p :: rest => leaves p ++ leavesOf rest

end

theorem mem_leavesOf {l : Leaf Q} {ps : List (Predicate Q)} : l ∈ leavesOf ps ↔ ∃ p ∈ ps, l ∈ p.leaves := by
  induction ps with
  | nil => simp [leavesOf]
  | cons p rest ih => simp [leavesOf, ih]

/-- every leaf holds the query that the factory makes for its test -/
def MadeBy (f : Factory Q) (entity : String) (leaves : List (Leaf Q)) : Prop :=
  ∀ l ∈ leaves, l.query = f.leaf entity l.aggregation l.test

theorem madeBy_append {f : Factory Q} {entity : String} {ls ms : List (Leaf Q)} :
    MadeBy f entity (ls ++ ms) ↔ MadeBy f entity ls ∧ MadeBy f entity ms := by
  simp [MadeBy, or_imp, forall_and]

/-! ## The meaning of a tree -/

mutual

/-- the Boolean meaning of a tree over the truth of its tests; a negation of nothing never holds -/
def Holds (truth : Option Aggregation → Test → Prop) : Predicate Q → Prop
  | .root none => True
  | .root (some p) => Holds truth p
  | .and children => AllHold truth children
  | .or children => AnyHolds truth children
  | .not none => False
  | .not (some p) => ¬ Holds truth p
  | .leaf t a _ => truth a t

def AllHold (truth : Option Aggregation → Test → Prop) : List (Predicate Q) → Prop
  | [] => True
  | p :: rest => Holds truth p ∧ AllHold truth rest

def AnyHolds (truth : Option Aggregation → Test → Prop) : List (Predicate Q) → Prop
  | [] => False
  | p :: rest => Holds truth p ∨ AnyHolds truth rest

end

/-! ## Rendering keeps it -/

/-- a child of an And that is no negation is rendered into what must hold -/
theorem renderParts_cons_plain {f : Factory Q} (entity : String) {p : Predicate Q} (plain : ∀ c, p ≠ .not c)
    (rest : List (Predicate Q)) : renderParts f entity (p :: rest) =
      p.render f entity >>= fun q => (renderParts f entity rest).map fun parts => (q :: parts.1, parts.2) := by
  cases p with
  | not c => exact absurd rfl (plain c)
  | _ =>
    simp only [renderParts]
    refine congrArg _ (funext fun q => ?_)
    cases renderParts f entity rest <;> rfl

/-- a child of an And is rendered into what must hold, or, if it is a negation, without its `not` into what must not -/
theorem renderParts_cons_ok {f : Factory Q} {entity : String} {p : Predicate Q} {rest : List (Predicate Q)}
    {must mustNot : List Q} (h : renderParts f entity (p :: rest) = .ok (must, mustNot)) :
    ∃ q m n, p.render f entity = .ok q ∧ renderParts f entity rest = .ok (m, n) ∧
      ((must, mustNot) = (q :: m, n) ∨ ∃ r, q = f.not r ∧ (must, mustNot) = (m, r :: n)) := by
  cases p with
  | not c =>
    cases c with
    | none => cases h
    | some p =>
      simp only [renderParts, bind_eq_ok, Except.ok.injEq] at h
      obtain ⟨r, hr, ⟨m, n⟩, hrest, h⟩ := h
      exact ⟨f.not r, m, n, by simp [render, hr, Except.map], hrest, .inr ⟨r, rfl, h.symm⟩⟩
  | _ =>
    simp only [renderParts, bind_eq_ok, Except.ok.injEq] at h
    obtain ⟨q, hq, ⟨m, n⟩, hrest, h⟩ := h
    exact ⟨q, m, n, hq, hrest, .inl h.symm⟩

variable {f : Factory Q} {entity : String} {truth : Option Aggregation → Test → Prop} {holds : Q → Prop}

mutual

/-- **Rendering keeps the meaning**: the query of a tree holds where the tree does. -/
theorem render_holds (reads : Interprets f entity truth holds) :
    ∀ (p : Predicate Q) {q : Q}, MadeBy f entity p.leaves → p.render f entity = .ok q → (holds q ↔ p.Holds truth)
  | .root none, q, _, h => by
    cases h
    simp [Holds, reads.matchAll]
  | .root (some p), q, made, h => render_holds reads p made h
  | .and children, q, made, h => by
    obtain ⟨⟨must, mustNot⟩, hparts, rfl⟩ := map_eq_ok.1 h
    rw [reads.and, renderParts_holds reads children made hparts, Holds]
  | .or children, q, made, h => by
    obtain ⟨qs, hqs, rfl⟩ := map_eq_ok.1 h
    rw [reads.or, renderAll_holds reads children made hqs, Holds]
  | .not none, q, _, h => by cases h
  | .not (some p), q, made, h => by
    obtain ⟨r, hr, rfl⟩ := map_eq_ok.1 h
    rw [reads.not, render_holds reads p made hr, Holds]
  | .leaf t a query, q, made, h => by
    have hq : query = f.leaf entity a t := made ⟨t, a, query⟩ (by simp [leaves])
    cases h
    rw [hq, reads.leaf, Holds]

theorem renderParts_holds (reads : Interprets f entity truth holds) :
    ∀ (ps : List (Predicate Q)) {must mustNot : List Q}, MadeBy f entity (leavesOf ps) →
      renderParts f entity ps = .ok (must, mustNot) →
      (((∀ q ∈ must, holds q) ∧ ∀ q ∈ mustNot, ¬ holds q) ↔ AllHold truth ps)
  | [], must, mustNot, _, h => by
    cases h
    simp [AllHold]
  | p :: rest, must, mustNot, made, h => by
    obtain ⟨made, mades⟩ := madeBy_append.1 made
    obtain ⟨q, m, n, hq, hrest, hparts⟩ := renderParts_cons_ok h
    rw [AllHold, ← render_holds reads p made hq, ← renderParts_holds reads rest mades hrest]
    rcases hparts with hparts | ⟨r, rfl, hparts⟩
    · cases hparts
      rw [List.forall_mem_cons, and_assoc]
    · cases hparts
      rw [List.forall_mem_cons, reads.not, and_left_comm]

theorem renderAll_holds (reads : Interprets f entity truth holds) :
    ∀ (ps : List (Predicate Q)) {qs : List Q}, MadeBy f entity (leavesOf ps) →
      renderAll f entity ps = .ok qs → ((∃ q ∈ qs, holds q) ↔ AnyHolds truth ps)
  | [], qs, _, h => by
    cases h
    simp [AnyHolds]
  | p :: rest, qs, made, h => by
    obtain ⟨made, mades⟩ := madeBy_append.1 made
    simp only [renderAll, bind_eq_ok, Except.ok.injEq] at h
    obtain ⟨q, hq, rs, hrest, rfl⟩ := h
    rw [AnyHolds, ← render_holds reads p made hq, ← renderAll_holds reads rest mades hrest]
    simp

end

end Predicate

end EntitySearch
