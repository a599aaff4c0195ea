/-
Which declarations make a catalog.

`WellFormed` says what a catalog keeps to, without regard to how it is checked: there are entities, they have names, no
name stands for two things, and exactly the embedded properties have properties of their own, at every depth. The check
goes through the entities one after the other with the names that it has seen, and down into their properties, and
stops at the first fault. `of_succeeds`: it lets through just the well-formed declarations, and changes nothing about
them.
-/
import EntitySearch.Catalog.Basic
import EntitySearch.Proofs.Number.Long
import EntitySearch.Proofs.Outcome

namespace EntitySearch

/-! ## Well-formed declarations -/

/-- the properties declared in an object, at any depth -/
inductive Declares : List (String × Property) → Property → Prop where
  | direct {name : String} {p : Property} {properties : List (String × Property)} : (name, p) ∈ properties →
      Declares properties p
  | nested {name : String} {p q : Property} {properties : List (String × Property)} : (name, p) ∈ properties →
      Declares p.properties q → Declares properties q

/-- a property with properties of its own is embedded, and one without is not -/
def Property.Shaped (p : Property) : Prop := p.properties ≠ [] ↔ p.kind = .embedded

/-- every property of an object is shaped so, at any depth -/
def AllShaped (properties : List (String × Property)) : Prop := ∀ p, Declares properties p → p.Shaped

/-- some character of the name is no blank -/
def Entity.Named (e : Entity) : Prop := ∃ c ∈ e.name.toList, Text.isBlank c = false

/-- **What the declarations of a catalog keep to.** -/
structure WellFormed (entities : List Entity) : Prop where
  filled : entities ≠ []
  named : ∀ e ∈ entities, e.Named
  distinct : (entities.flatMap Entity.names).Nodup
  shaped : ∀ e ∈ entities, AllShaped e.properties

/-! ## Names -/

/-- nothing is left of a text by trimming when all of it is blank -/
theorem isEmpty_trim {s : String} : (Text.trim s).isEmpty = true ↔ ∀ c ∈ s.toList, Text.isBlank c = true := by
  rw [String.isEmpty_iff, ← String.toList_inj, String.toList_empty]
  constructor
  · intro h
    obtain ⟨front, back, spelled, blank⟩ := Text.trim_blanks s
    rw [h, List.append_nil] at spelled
    exact spelled ▸ blank
  · intro h
    have blank : ∀ c ∈ s.toList ++ [], Text.isBlank c = true := by rwa [List.append_nil]
    exact Text.trim_between (by simp) blank (Query.clear_nil _) (Query.clear_nil _)

theorem Entity.named_iff {e : Entity} : e.Named ↔ (Text.trim e.name).isEmpty = false := by
  rw [← Bool.not_eq_true, isEmpty_trim]
  simp [Named]

/-- the names differ from each other and from those seen -/
def Fresh (seen names : List String) : Prop := names.Nodup ∧ ∀ n ∈ names, n ∉ seen

theorem fresh_append {seen names more : List String} :
    Fresh seen (names ++ more) ↔ Fresh seen names ∧ Fresh (names.reverse ++ seen) more := by
  simp only [Fresh, List.nodup_append', List.mem_append, List.mem_reverse, not_or, or_imp, forall_and]
  constructor
  · rintro ⟨⟨first, second, apart⟩, new, new'⟩
    exact ⟨⟨first, new⟩, second, fun n hn there => apart there hn, new'⟩
  · rintro ⟨⟨first, new⟩, second, apart, new'⟩
    exact ⟨⟨first, second, fun n there hn => apart n hn there⟩, new, new'⟩

theorem fresh_cons {seen rest : List String} {name : String} :
    Fresh seen (name :: rest) ↔ name ∉ seen ∧ Fresh (name :: seen) rest := by
  rw [← List.singleton_append, fresh_append]
  simp [Fresh]

/-- fresh names are added to those seen -/
theorem addNames_ok {seen names seen' : List String} :
    addNames seen names = .ok seen' ↔ Fresh seen names ∧ seen' = names.reverse ++ seen := by
  induction names generalizing seen with
  | nil => simp [addNames, Fresh, eq_comm]
  | cons name rest ih =>
    rw [addNames, fresh_cons, List.reverse_cons, List.append_assoc, List.singleton_append, and_assoc, ← ih]
    by_cases h : name ∈ seen <;> simp [h]

/-! ## Properties -/

theorem declares_cons {name : String} {p q : Property} {rest : List (String × Property)} :
    Declares ((name, p) :: rest) q ↔ (q = p ∨ Declares p.properties q) ∨ Declares rest q := by
  constructor
  · intro h
    cases h with
    | direct h =>
      rcases List.mem_cons.1 h with h | h
      · cases h
        exact .inl (.inl rfl)
      · exact .inr (.direct h)
    | nested h inside =>
      rcases List.mem_cons.1 h with h | h
      · cases h
        exact .inl (.inr inside)
      · exact .inr (.nested h inside)
  · rintro ((rfl | h) | h)
    · exact .direct List.mem_cons_self
    · exact .nested List.mem_cons_self h
    · cases h with
      | direct h => exact .direct (List.mem_cons_of_mem _ h)
      | nested h inside => exact .nested (List.mem_cons_of_mem _ h) inside

theorem allShaped_nil : AllShaped [] := by
  intro p h
  cases h with
  | direct h => cases h
  | nested h => cases h

theorem allShaped_cons {name : String} {p : Property} {rest : List (String × Property)} :
    AllShaped ((name, p) :: rest) ↔ (p.Shaped ∧ AllShaped p.properties) ∧ AllShaped rest := by
  simp only [AllShaped, declares_cons, or_imp, forall_and, forall_eq]

variable {entity name : String} {kind : Kind} {analyzed : Bool} {inner : List (String × Property)}

theorem checkProperty_embedded : checkProperty entity name ⟨.embedded, analyzed, inner⟩ = .ok () ↔
    inner ≠ [] ∧ checkProperties entity name inner = .ok () := by
  cases inner <;> simp [checkProperty]

theorem checkProperty_scalar (h : kind ≠ .embedded) :
    checkProperty entity name ⟨kind, analyzed, inner⟩ = .ok () ↔ inner = [] := by
  cases kind with
  | embedded => exact absurd rfl h
  | _ => cases inner <;> simp [checkProperty]

mutual

/-- a property passes the check when it and everything inside it is shaped as it should be -/
theorem checkProperty_iff (entity : String) : ∀ (name : String) (p : Property),
    checkProperty entity name p = .ok () ↔ p.Shaped ∧ AllShaped p.properties
  | name, ⟨kind, analyzed, inner⟩ => by
    by_cases h : kind = .embedded
    · subst h
      rw [checkProperty_embedded, checkProperties_iff entity name inner]
      simp [Property.Shaped]
    · rw [checkProperty_scalar h]
      constructor
      · rintro rfl
        exact ⟨by simp [Property.Shaped, h], allShaped_nil⟩
      · rintro ⟨shaped, -⟩
        exact not_not.1 fun filled => h (shaped.1 filled)

theorem checkProperties_iff (entity : String) : ∀ (outer : String) (properties : List (String × Property)),
    checkProperties entity outer properties = .ok () ↔ AllShaped properties
  | _, [] => by simp [checkProperties, allShaped_nil]
  | outer, (name, p) :: rest => by
    rw [allShaped_cons, ← checkProperty_iff entity (nestedName outer name) p, ← checkProperties_iff entity outer rest,
      checkProperties]
    cases checkProperty entity (nestedName outer name) p <;> simp

end

/-! ## Entities -/

/-- the check of the entities behind those whose names were seen -/
theorem checkFrom_iff {seen : List String} {entities : List Entity} : checkFrom seen entities = .ok () ↔
    (∀ e ∈ entities, e.Named) ∧ Fresh seen (entities.flatMap Entity.names) ∧
      ∀ e ∈ entities, AllShaped e.properties := by
  induction entities generalizing seen with
  | nil => simp [checkFrom, Fresh]
  | cons e rest ih =>
    rw [checkFrom, List.forall_mem_cons, List.forall_mem_cons, List.flatMap_cons, fresh_append, Entity.named_iff]
    cases (Text.trim e.name).isEmpty with
    | true => simp
    | false =>
      simp only [Bool.false_eq_true, if_false, bind_eq_ok, addNames_ok, ih, true_and]
      constructor
      · rintro ⟨_, ⟨new, rfl⟩, ⟨⟩, shaped, named, news, others⟩
        exact ⟨named, ⟨new, news⟩, (checkProperties_iff _ _ _).1 shaped, others⟩
      · rintro ⟨named, ⟨new, news⟩, shaped, others⟩
        exact ⟨_, ⟨new, rfl⟩, (), (checkProperties_iff _ _ _).2 shaped, named, news, others⟩

/-- **The check lets through what is well formed.** -/
theorem checkEntities_iff {entities : List Entity} : checkEntities entities = .ok () ↔ WellFormed entities := by
  rw [checkEntities]
  cases entities with
  | nil => exact ⟨nofun, fun h => absurd rfl h.filled⟩
  | cons e rest =>
    rw [List.isEmpty_cons, if_neg Bool.false_ne_true, checkFrom_iff]
    constructor
    · rintro ⟨named, new, shaped⟩
      exact ⟨List.cons_ne_nil _ _, named, new.1, shaped⟩
    · intro h
      exact ⟨h.named, ⟨h.distinct, fun _ _ => List.not_mem_nil⟩, h.shaped⟩

namespace Catalog

theorem of_ok {entities : List Entity} {c : Catalog} :
    Catalog.of entities = .ok c ↔ checkEntities entities = .ok () ∧ c.entities = entities := by
  unfold Catalog.of
  split
  · rename_i sound
    constructor
    · rintro ⟨⟩
      exact ⟨sound, rfl⟩
    · rintro ⟨-, rfl⟩
      rfl
  · rename_i fault
    simp [fault]

/-- **A catalog is made of the declarations exactly when they are well formed**, and it is one of all of them. -/
theorem of_succeeds (entities : List Entity) :
    ((∃ c, Catalog.of entities = .ok c) ↔ WellFormed entities) ∧
      ∀ c, Catalog.of entities = .ok c → c.entities = entities := by
  refine ⟨⟨?_, ?_⟩, fun c made => (of_ok.1 made).2⟩
  · rintro ⟨c, made⟩
    exact checkEntities_iff.1 (of_ok.1 made).1
  · intro wellFormed
    have sound := checkEntities_iff.2 wellFormed
    exact ⟨⟨entities, sound⟩, of_ok.2 ⟨sound, rfl⟩⟩

/-- huts, with a second name and an object in them, and hikes without properties -/
def alpineHuts : List Entity :=
  [⟨"Hut", some "alps.Hut",
    [("beds", ⟨.long, false, []⟩), ("place", ⟨.embedded, false, [("name", ⟨.string, true, []⟩)]⟩)]⟩,
    ⟨"Hike", none, []⟩]

/-- The huts make a catalog, and it has them as they are declared. -/
theorem of_succeeds_alpineHuts :
    WellFormed alpineHuts ∧ ∃ c, Catalog.of alpineHuts = .ok c ∧ c.entities = alpineHuts := by
  have wellFormed : WellFormed alpineHuts := checkEntities_iff.1 (by decide +kernel)
  obtain ⟨made, entire⟩ := of_succeeds alpineHuts
  obtain ⟨c, hc⟩ := made.2 wellFormed
  exact ⟨wellFormed, c, hc, entire c hc⟩

-- a qualified name that is the simple one is a second thing of that name
example : ¬ WellFormed [⟨"Hike", some "Hike", []⟩] := fun h => absurd h.distinct (by decide)

end Catalog

end EntitySearch
