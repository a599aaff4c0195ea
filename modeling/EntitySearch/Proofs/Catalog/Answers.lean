/-
What a catalog answers.

A name is known when one declaration has it, as its own or as its qualified name. That declarations are searched from
the first on makes no difference: as no two share a name, a `table` into which they are entered one after the other,
each in place of what was there, loses none of them and finds the same (`table_eq_find?`). `answers`: names, paths and
embedded objects are answered for just as they were declared.
-/
import EntitySearch.Proofs.Catalog.Nesting

namespace EntitySearch

namespace Catalog

/-! ## Names that occur once -/

section

variable {keys : Entity → List String} {before after entities : List Entity} {e : Entity} {n : String}

theorem others_lack (distinct : ((before ++ e :: after).flatMap keys).Nodup) (hn : n ∈ keys e) :
    (∀ d ∈ before, n ∉ keys d) ∧ ∀ d ∈ after, n ∉ keys d := by
  rw [List.flatMap_append, List.flatMap_cons, List.nodup_append', List.nodup_append'] at distinct
  obtain ⟨-, ⟨-, -, behind⟩, front⟩ := distinct
  constructor
  · intro d hd there
    exact front (List.mem_flatMap.2 ⟨d, hd, there⟩) (List.mem_append_left _ hn)
  · intro d hd there
    exact behind hn (List.mem_flatMap.2 ⟨d, hd, there⟩)

/-- among declarations without a common key, a key belongs to one only -/
theorem filter_key (distinct : (entities.flatMap keys).Nodup) (he : e ∈ entities) (hn : n ∈ keys e) :
    entities.filter (n ∈ keys ·) = [e] := by
  obtain ⟨before, after, rfl⟩ := List.mem_iff_append.1 he
  obtain ⟨none_before, none_after⟩ := others_lack distinct hn
  have front : before.filter (n ∈ keys ·) = [] := List.filter_eq_nil_iff.2 (by simpa using none_before)
  have behind : after.filter (n ∈ keys ·) = [] := List.filter_eq_nil_iff.2 (by simpa using none_after)
  rw [List.filter_append, List.filter_cons_of_pos (by simpa using hn), front, behind, List.nil_append]

theorem find?_key (distinct : (entities.flatMap keys).Nodup) :
    entities.find? (n ∈ keys ·) = some e ↔ entities.filter (n ∈ keys ·) = [e] := by
  rw [← List.head?_filter]
  constructor
  · intro h
    have there := List.mem_of_head? h
    rw [List.mem_filter, decide_eq_true_eq] at there
    exact filter_key distinct there.1 there.2
  · intro h
    rw [h, List.head?_cons]

/-! ## Tables -/

variable {α : Type} (value : Entity → α)

/-- a declaration is entered under all its keys, in place of what was there -/
def enter (keys : Entity → List String) (table : String → Option α) (e : Entity) : String → Option α :=
  (keys e).foldl (fun table n => Function.update table n (some (value e))) table

/-- the table of declarations that are entered one after the other -/
def table (keys : Entity → List String) (entities : List Entity) : String → Option α :=
  entities.foldl (enter value keys) fun _ => none

theorem enter_apply (old : String → Option α) :
    enter value keys old e n = if n ∈ keys e then some (value e) else old n := by
  rw [enter]
  generalize keys e = names
  induction names generalizing old with
  | nil => rfl
  | cons name rest ih =>
    rw [List.foldl_cons, ih, Function.update_apply]
    by_cases h : n ∈ rest
    · simp [h]
    · simp [h]

/-- entering what has other keys changes nothing -/
theorem foldl_enter_other (old : String → Option α) (h : ∀ e ∈ entities, n ∉ keys e) :
    entities.foldl (enter value keys) old n = old n := by
  induction entities generalizing old with
  | nil => rfl
  | cons e rest ih =>
    rw [List.forall_mem_cons] at h
    rw [List.foldl_cons, ih _ h.2, enter_apply, if_neg h.1]

/-- **Nothing is overwritten**: without a common key, the table finds what a search from the first declaration finds. -/
theorem table_eq_find? (distinct : (entities.flatMap keys).Nodup) :
    table value keys entities n = (entities.find? (n ∈ keys ·)).map value := by
  cases h : entities.find? (n ∈ keys ·) with
  | none =>
    rw [List.find?_eq_none] at h
    exact foldl_enter_other value _ fun e he => by simpa using h e he
  | some e =>
    have hn : n ∈ keys e := by simpa using List.find?_some h
    obtain ⟨before, after, rfl⟩ := List.mem_iff_append.1 (List.mem_of_find?_eq_some h)
    rw [table, List.foldl_append, List.foldl_cons, foldl_enter_other value _ (others_lack distinct hn).2, enter_apply,
      if_pos hn]
    rfl

end

/-! ## Paths -/

/-- the property at the end of a path of names, each declared in the one before -/
inductive Leads : List (String × Property) → List String → Property → Prop where
  | last {name : String} {p : Property} {properties : List (String × Property)} : properties.lookup name = some p →
      Leads properties [name] p
  | inside {name : String} {outer p : Property} {properties : List (String × Property)} {rest : List String} :
      properties.lookup name = some outer → Leads outer.properties rest p → Leads properties (name :: rest) p

theorem walk_iff {properties : List (String × Property)} {path : List String} {p : Property} :
    walk properties path = some p ↔ Leads properties path p := by
  constructor
  · intro h
    induction path generalizing properties with
    | nil => cases h
    | cons name rest ih =>
      by_cases more : rest = []
      · subst more
        exact .last h
      · rw [walk_cons properties name more] at h
        obtain ⟨outer, found, h⟩ := Option.bind_eq_some_iff.1 h
        exact .inside found (ih h)
  · intro h
    induction h with
    | last found => exact found
    | @inside name outer p properties rest found inner ih =>
      have more : rest ≠ [] := by
        rintro rfl
        cases inner
      rw [walk_cons properties name more, found]
      exact ih

/-! ## Answers -/

variable {entities : List Entity} {c : Catalog} {n entity : String} {e : Entity}

/-- the declarations of a catalog share no name -/
theorem names_distinct (c : Catalog) : (c.entities.flatMap Entity.names).Nodup :=
  (checkEntities_iff.1 c.sound).distinct

/-- nor a simple name -/
theorem simple_distinct (c : Catalog) : (c.entities.flatMap fun e => [e.name]).Nodup :=
  c.names_distinct.sublist (List.Sublist.flatMap_right _ fun _ _ => List.cons_sublist_cons.2 (List.nil_sublist _))

theorem resolve_eq_find? (c : Catalog) (n : String) :
    c.resolve n = (c.entities.find? (n ∈ Entity.names ·)).map (·.name) := by
  simp only [resolve, List.contains_eq_mem]

theorem entity?_eq_find? (c : Catalog) (n : String) : c.entity? n = c.entities.find? fun e => n ∈ [e.name] := by
  have same : ∀ e : Entity, (e.name == n) = decide (n ∈ [e.name]) := fun e => by
    rw [Bool.eq_iff_iff, beq_iff_eq, decide_eq_true_eq, List.mem_singleton, eq_comm]
  simp only [entity?, same]

theorem resolve_iff : c.resolve n = some entity ↔
    ∃ e, c.entities.filter (n ∈ Entity.names ·) = [e] ∧ e.name = entity := by
  rw [resolve_eq_find?, Option.map_eq_some_iff]
  exact exists_congr fun e => and_congr_left' (find?_key c.names_distinct)

theorem entity?_iff : c.entity? n = some e ↔ e ∈ c.entities ∧ e.name = n := by
  rw [entity?_eq_find?]
  constructor
  · intro h
    have same := List.find?_some h
    simp only [List.mem_singleton, decide_eq_true_eq] at same
    exact ⟨List.mem_of_find?_eq_some h, same.symm⟩
  · rintro ⟨he, rfl⟩
    exact (find?_key c.simple_distinct).2 (filter_key c.simple_distinct he (List.mem_singleton_self _))

/-- **A catalog answers for what was declared.** A name is known when exactly one declaration has it, and stands for
that one. No declaration is lost: each is found by its name, and tables filled one after the other would answer the
same. A path leads where the declarations lead, goes on only behind embedded objects, and does go on behind each of
them. -/
theorem answers (h : Catalog.of entities = .ok c) :
    (∀ n entity, c.resolve n = some entity ↔ ∃ e, entities.filter (n ∈ Entity.names ·) = [e] ∧ e.name = entity) ∧
    (∀ e ∈ entities, c.entity? e.name = some e) ∧
    c.resolve = table Entity.name Entity.names entities ∧
    c.entity? = table id (fun e => [e.name]) entities ∧
    (∀ entity path p, c.property entity path = some p ↔ ∃ e ∈ entities, e.name = entity ∧ Leads e.properties path p) ∧
    (∀ entity path name, path ≠ [] → c.hasProperty entity (path ++ [name]) = true → c.isEmbedded entity path = true) ∧
    ∀ entity path, c.isEmbedded entity path = true → ∃ name, c.hasProperty entity (path ++ [name]) = true := by
  obtain ⟨-, rfl⟩ := of_ok.1 h
  refine ⟨fun n entity => resolve_iff, fun e he => entity?_iff.2 ⟨he, rfl⟩, funext fun n => ?_, funext fun n => ?_,
    fun entity path p => ?_, fun entity path name hn => isEmbedded_of_hasProperty hn (List.cons_ne_nil _ _),
    fun entity path => hasProperty_of_isEmbedded⟩
  · rw [resolve_eq_find?, table_eq_find? Entity.name c.names_distinct]
  · rw [entity?_eq_find?, table_eq_find? id c.simple_distinct, Option.map_id, id]
  · rw [property, Option.bind_eq_some_iff]
    simp only [entity?_iff, walk_iff, and_assoc]

/-- hikes, known by a longer name too, and the huts where some of them start -/
def trails : List Entity :=
  [⟨"Hike", some "trails.Hike", [("km", ⟨.double, false, []⟩),
      ("start", ⟨.embedded, false, [("hut", ⟨.embedded, false, [("beds", ⟨.long, false, []⟩)]⟩)]⟩)]⟩,
    ⟨"Hut", none, [("beds", ⟨.long, false, []⟩)]⟩]

/-- a qualified name is known, and a path of three names leads through two embedded objects -/
theorem trails_answered : ∃ c, Catalog.of trails = .ok c ∧ c.resolve "trails.Hike" = some "Hike" ∧
    c.property "Hike" ["start", "hut", "beds"] = some ⟨.long, false, []⟩ ∧
    (["start"] ≠ [] ∧ c.hasProperty "Hike" (["start"] ++ ["hut"]) = true ∧ c.isEmbedded "Hike" ["start"] = true) ∧
    c.isEmbedded "Hike" ["start", "hut"] = true ∧ ∃ name, c.hasProperty "Hike" (["start", "hut"] ++ [name]) = true := by
  have sound : checkEntities trails = .ok () := by decide +kernel
  have made : Catalog.of trails = .ok ⟨trails, sound⟩ := of_ok.2 ⟨sound, rfl⟩
  obtain ⟨known, -, -, -, leads, inward, onward⟩ := answers made
  have start : Catalog.hasProperty ⟨trails, sound⟩ "Hike" (["start"] ++ ["hut"]) = true := rfl
  have hut : Catalog.isEmbedded ⟨trails, sound⟩ "Hike" ["start", "hut"] = true := rfl
  have beds : Leads [("beds", ⟨.long, false, []⟩)] ["beds"] ⟨.long, false, []⟩ := .last rfl
  refine ⟨⟨trails, sound⟩, made, (known _ _).2 ⟨_, rfl, rfl⟩, ?_,
    ⟨List.cons_ne_nil _ _, start, inward "Hike" ["start"] "hut" (List.cons_ne_nil _ _) start⟩, hut,
    onward "Hike" ["start", "hut"] hut⟩
  exact (leads _ _ _).2 ⟨_, List.mem_cons_self, rfl, .inside rfl (.inside rfl beds)⟩

end Catalog

end EntitySearch
