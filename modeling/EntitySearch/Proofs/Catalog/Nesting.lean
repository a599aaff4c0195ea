/-
Only embedded properties have properties of their own.

The declarations of a catalog keep to that at every depth. So a path that goes on behind some names goes through an
embedded object there (`isEmbedded_of_hasProperty`), and behind an embedded object there is a way on
(`hasProperty_of_isEmbedded`). What is declared as analyzed and is no object cannot be tested; `Plain` says of a path
that it leads to nothing of the kind, in the words of the declarations, and `plain_iff` in those of the look-ups.
-/
import EntitySearch.Proofs.Catalog.Soundness
import EntitySearch.Proofs.Lookup

namespace EntitySearch

namespace Catalog

variable {properties : List (String × Property)} {name : String} {names rest : List String} {p q : Property}

/-! ## Paths below an object -/

theorem walk_nil : walk [] names = none := by
  cases names with
  | nil => rfl
  | cons name rest => cases rest <;> rfl

theorem walk_cons (properties : List (String × Property)) (name : String) (h : rest ≠ []) :
    walk properties (name :: rest) = (properties.lookup name).bind fun p => walk p.properties rest := by
  cases rest with
  | nil => exact absurd rfl h
  | cons => rfl

/-- a path goes on from where its front leads -/
theorem walk_append (properties : List (String × Property)) (hn : names ≠ []) (hr : rest ≠ []) :
    walk properties (names ++ rest) = (walk properties names).bind fun p => walk p.properties rest := by
  induction names generalizing properties with
  | nil => exact absurd rfl hn
  | cons name names ih =>
    rw [List.cons_append, walk_cons properties name (List.append_ne_nil_of_right_ne_nil names hr)]
    by_cases more : names = []
    · subst more
      rfl
    · rw [walk_cons properties name more, Option.bind_assoc]
      exact Option.bind_congr fun p _ => ih p.properties more

/-- what a path leads to is declared -/
theorem declares_of_walk (h : walk properties names = some p) : Declares properties p := by
  induction names generalizing properties with
  | nil => cases h
  | cons name names ih =>
    by_cases more : names = []
    · subst more
      exact .direct (mem_of_lookup h)
    · rw [walk_cons properties name more] at h
      obtain ⟨o, ho, h⟩ := Option.bind_eq_some_iff.1 h
      exact .nested (mem_of_lookup ho) (ih h)

/-! ## Paths of an entity -/

variable {c : Catalog} {entity : String}

/-- the properties that a catalog has are shaped as they should be -/
theorem property_shaped (h : c.property entity names = some p) : p.Shaped := by
  obtain ⟨e, he, h⟩ := Option.bind_eq_some_iff.1 h
  exact (checkEntities_iff.1 c.sound).shaped e (List.mem_of_find?_eq_some he) p (declares_of_walk h)

theorem property_append (c : Catalog) (entity : String) (hn : names ≠ []) (hr : rest ≠ []) :
    c.property entity (names ++ rest) = (c.property entity names).bind fun p => walk p.properties rest := by
  rw [property, property, Option.bind_assoc]
  exact Option.bind_congr fun e _ => walk_append e.properties hn hr

theorem isEmbedded_iff : c.isEmbedded entity names = true ↔
    ∃ p, c.property entity names = some p ∧ p.kind = .embedded := by
  cases h : c.property entity names <;> simp [isEmbedded, h]

theorem isAnalyzed_iff : c.isAnalyzed entity names = true ↔
    ∃ p, c.property entity names = some p ∧ p.analyzed = true := by
  cases h : c.property entity names <;> simp [isAnalyzed, h]

/-- what is declared there, if it is declared as analyzed, is an embedded object -/
def Plain (c : Catalog) (entity : String) (names : List String) : Prop :=
  ∀ p, c.property entity names = some p → p.analyzed = true → p.kind = .embedded

theorem plain_iff :
    c.Plain entity names ↔ (c.isAnalyzed entity names = true → c.isEmbedded entity names = true) := by
  constructor
  · intro plain analyzed
    obtain ⟨p, hp, flagged⟩ := isAnalyzed_iff.1 analyzed
    exact isEmbedded_iff.2 ⟨p, hp, plain p hp flagged⟩
  · intro embedded p hp flagged
    obtain ⟨q, hq, object⟩ := isEmbedded_iff.1 (embedded (isAnalyzed_iff.2 ⟨p, hp, flagged⟩))
    cases hp.symm.trans hq
    exact object

/-- **A path goes on only behind embedded objects.** -/
theorem isEmbedded_of_hasProperty (hn : names ≠ []) (hr : rest ≠ []) (h : c.hasProperty entity (names ++ rest) = true) :
    c.isEmbedded entity names = true := by
  obtain ⟨q, hq⟩ := Option.isSome_iff_exists.1 h
  rw [property_append c entity hn hr] at hq
  obtain ⟨p, hp, hq⟩ := Option.bind_eq_some_iff.1 hq
  have nested : p.properties ≠ [] := fun none_inside => by
    rw [none_inside, walk_nil] at hq
    cases hq
  exact isEmbedded_iff.2 ⟨p, hp, (property_shaped hp).1 nested⟩

theorem hasProperty_nil : c.hasProperty entity [] = false := by
  cases h : c.entity? entity <;> simp [hasProperty, property, h, walk]

/-- behind an embedded object a path goes on -/
theorem hasProperty_of_isEmbedded (h : c.isEmbedded entity names = true) :
    ∃ name, c.hasProperty entity (names ++ [name]) = true := by
  obtain ⟨p, hp, embedded⟩ := isEmbedded_iff.1 h
  have hn : names ≠ [] := by
    rintro rfl
    have nothing : c.hasProperty entity [] = false := hasProperty_nil
    rw [hasProperty, hp] at nothing
    cases nothing
  obtain ⟨⟨name, q⟩, others, filled⟩ := List.exists_cons_of_ne_nil ((property_shaped hp).2 embedded)
  refine ⟨name, Option.isSome_iff_exists.2 ⟨q, ?_⟩⟩
  rw [property_append c entity hn (List.cons_ne_nil _ _), hp, Option.bind_some, filled, walk, lookup_cons_ite,
    if_pos rfl]

end Catalog

end EntitySearch
