/-
Predicate trees without empty negations.

Rendering a tree can only fail on a negation of nothing. `render_whole`: where there is none, at any depth, the tree is
rendered, whatever the factory.
-/
import EntitySearch.Predicate.Tree
import EntitySearch.Proofs.Outcome

namespace EntitySearch

namespace Predicate

variable {Q : Type}

mutual

/-- no negation in the tree is empty -/
def Whole : Predicate Q → Prop
  | .root none => True
  | .root (some p) => Whole p
  | .and children => AllWhole children
  | .or children => AllWhole children
  | .not none => False
  | .not (some p) => Whole p
  | .leaf .. => True

def AllWhole : List (Predicate Q) → Prop
  | [] => True
  | p :: rest => Whole p ∧ AllWhole rest

end

theorem allWhole_iff {ps : List (Predicate Q)} : AllWhole ps ↔ ∀ p ∈ ps, Whole p := by
  induction ps with
  | nil => simp [AllWhole]
  | cons p rest ih => simp [AllWhole, ih]

variable (f : Factory Q) (entity : String)

/-- the rendered parts of an And, from the rendered first child and the parts of the rest -/
theorem renderParts_cons {p : Predicate Q} {q : Q} {rest : List (Predicate Q)} {parts : List Q × List Q}
    (hp : p.Whole) (hq : p.render f entity = .ok q) (hrest : renderParts f entity rest = .ok parts) :
    ∃ parts', renderParts f entity (p :: rest) = .ok parts' := by
  cases p with
  | not child =>
    cases child with
    | none => exact hp.elim
    | some p =>
      obtain ⟨r, hr, -⟩ := map_eq_ok.1 hq
      exact ⟨_, by rw [renderParts, hr, ok_bind, hrest, ok_bind]⟩
  | _ => exact ⟨_, by simp only [renderParts, hq, hrest, ok_bind]; rfl⟩

mutual

/-- a tree without empty negations is rendered -/
theorem render_whole : ∀ {p : Predicate Q}, p.Whole → ∃ q, p.render f entity = .ok q
  | .root none, _ => ⟨_, rfl⟩
  | .root (some p), h => render_whole (p := p) h
  | .and children, h => by
    obtain ⟨parts, hparts⟩ := renderParts_whole (show AllWhole children from h)
    exact ⟨_, map_eq_ok.2 ⟨parts, hparts, rfl⟩⟩
  | .or children, h => by
    obtain ⟨qs, hqs⟩ := renderAll_whole (show AllWhole children from h)
    exact ⟨_, map_eq_ok.2 ⟨qs, hqs, rfl⟩⟩
  | .not none, h => h.elim
  | .not (some p), h => by
    obtain ⟨q, hq⟩ := render_whole (p := p) h
    exact ⟨_, map_eq_ok.2 ⟨q, hq, rfl⟩⟩
  | .leaf _ _ query, _ => ⟨query, rfl⟩

theorem renderParts_whole : ∀ {ps : List (Predicate Q)}, AllWhole ps → ∃ parts, renderParts f entity ps = .ok parts
  | [], _ => ⟨_, rfl⟩
  | _ :: _, h => by
    obtain ⟨q, hq⟩ := render_whole h.1
    obtain ⟨parts, hparts⟩ := renderParts_whole h.2
    exact renderParts_cons f entity h.1 hq hparts

theorem renderAll_whole : ∀ {ps : List (Predicate Q)}, AllWhole ps → ∃ qs, renderAll f entity ps = .ok qs
  | [], _ => ⟨_, rfl⟩
  | _ :: _, h => by
    obtain ⟨q, hq⟩ := render_whole h.1
    obtain ⟨qs, hqs⟩ := renderAll_whole h.2
    exact ⟨q :: qs, by rw [renderAll, hq, ok_bind, hqs, ok_bind]⟩

end

end Predicate

end EntitySearch
