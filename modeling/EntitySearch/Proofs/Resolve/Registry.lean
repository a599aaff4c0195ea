/-
What a table of aliases remembers of the calls that bound names.

A call asks for a name to be bound to a root entity or to the path of a join. What the table holds after any calls is
told by the calls alone (`Recalls`): the first call about a name decides what the name is bound to, and the names stand
in the order of their first calls. So a binding never changes, and the root aliases are the names whose first call was
about a root (`calls_remembered`), in the list that the table keeps of them. Only a root that asks for something else
than is bound is turned down, and so is every join that comes too late; the table stays as it was.
-/
import EntitySearch.Proofs.Resolve.Alias
import Mathlib.Data.Set.Card

namespace EntitySearch

namespace AliasTable

/-! ## Calls -/

/-- a name is to be bound -/
inductive Call where
  | root (name entity : String)
  | join (name : String) (path : Path)
  deriving DecidableEq, Repr

namespace Call

/-- the name that the call is about -/
def name : Call → String
  | .root name _ => name
  | .join name _ => name

/-- what the name is to be bound to -/
def binding : Call → Binding
  | .root _ entity => .root entity
  | .join _ path => .join path

/-- a root entity is to be bound -/
def isRoot : Call → Bool
  | .root .. => true
  | .join .. => false

end Call

/-- the table after a call -/
def after (t : AliasTable) : Call → AliasTable
  | .root name entity => (t.registerRoot name entity).2
  | .join name path => (t.bindJoin name path).2

/-- the call is not turned down -/
def accepts (t : AliasTable) : Call → Bool
  | .root name entity => (t.registerRoot name entity).1.toBool
  | .join name path => (t.bindJoin name path).1

/-- the table after calls on one without aliases -/
def run (calls : List Call) : AliasTable := calls.foldl after empty

/-- the first call about a name -/
def firstCall (calls : List Call) (name : String) : Option Call := calls.find? (·.name == name)

/-- the names that calls are about, in the order of the first calls about them -/
def named (calls : List Call) : List String := (calls.map Call.name).eraseDups

variable {t : AliasTable} {calls more : List Call} {c : Call} {name entity : String} {path : Path}

/-! ## One call -/

/-- **A root is turned down** just when its name stands for anything but the entity, and the error says for what. -/
theorem bindRoot_eq_error {e : AliasError} : t.bindRoot name entity = .error e ↔
    ∃ b, t.get? name = some b ∧ b ≠ .root entity ∧ e = .conflict name b.text entity := by
  rcases t.registerRoot_cases name entity with ⟨free, fresh⟩ | ⟨bound, again⟩ | ⟨b, bound, other, refused⟩
  · simp [bindRoot, fresh, free]
  · simp [bindRoot, again, bound]
  · simp only [bindRoot, refused, bound, Except.error.injEq, Option.some.injEq, exists_eq_left', ne_eq, other,
      not_false_eq_true, true_and]
    exact eq_comm

/-- **A join is turned down** just when its name is bound. -/
theorem bindJoin_eq_false : (t.bindJoin name path).1 = false ↔ t.isAlias name = true := by
  unfold bindJoin
  split <;> simp_all

/-- whatever a call asks for, it binds a name that is free, and leaves the table alone otherwise -/
theorem after_eq (t : AliasTable) (c : Call) :
    t.after c = if t.isAlias c.name then t else t.add c.name c.binding := by
  cases c with
  | join name path =>
    simp only [after, bindJoin, Call.name, Call.binding]
    by_cases bound : t.isAlias name = true <;> simp [bound]
  | root name entity =>
    simp only [after, isAlias, Call.name, Call.binding]
    rcases t.registerRoot_cases name entity with ⟨free, fresh⟩ | ⟨bound, again⟩ | ⟨b, bound, -, refused⟩
    · simp [fresh, free]
    · simp [again, bound]
    · simp [refused, bound]

/-- **A call that is turned down leaves the table as it was.** -/
theorem after_of_not_accepts (h : t.accepts c = false) : t.after c = t := by
  cases c with
  | join name path =>
    have bound : t.isAlias name = true := bindJoin_eq_false.1 h
    rw [after_eq]
    exact if_pos bound
  | root name entity =>
    rw [after]
    rcases hr : t.registerRoot name entity with ⟨e | _, t'⟩
    · exact registerRoot_refused hr
    · simp [accepts, hr, Except.toBool] at h

/-! ## Any calls -/

/-- the table is what the calls say -/
structure Recalls (calls : List Call) (t : AliasTable) : Prop where
  names : t.bindings.map Prod.fst = named calls
  nodup : (named calls).Nodup
  get? : ∀ name, t.get? name = (firstCall calls name).map Call.binding
  roots : t.rootAliases = (named calls).filter fun name => (firstCall calls name).any Call.isRoot

theorem mem_named : name ∈ named calls ↔ (firstCall calls name).isSome = true := by
  simp [named, firstCall, List.mem_eraseDups]

theorem Recalls.isAlias (h : Recalls calls t) (name : String) : t.isAlias name = true ↔ name ∈ named calls := by
  rw [AliasTable.isAlias, h.get?, Option.isSome_map, mem_named]

theorem firstCall_append (calls more : List Call) (name : String) :
    firstCall (calls ++ more) name = (firstCall calls name).or (firstCall more name) := List.find?_append

theorem firstCall_singleton (c : Call) (name : String) :
    firstCall [c] name = if c.name = name then some c else none := by
  by_cases h : c.name = name <;> simp [firstCall, h]

theorem named_snoc (calls : List Call) (c : Call) :
    named (calls ++ [c]) = named calls ++ if c.name ∈ named calls then [] else [c.name] := by
  rw [named, List.map_append, List.eraseDups_append, List.map_singleton, List.removeAll]
  congr 1
  by_cases h : c.name ∈ named calls
  · have there : c.name ∈ calls.map Call.name := List.mem_eraseDups.1 h
    rw [if_pos h, List.filter_cons_of_neg (by simp only [List.elem_eq_mem, there, decide_true]; decide)]
    rfl
  · have absent : c.name ∉ calls.map Call.name := fun there => h (List.mem_eraseDups.2 there)
    rw [if_neg h, List.filter_cons_of_pos (by simp only [List.elem_eq_mem, absent, decide_false]; decide)]
    rfl

/-- one call more is remembered, too -/
theorem Recalls.after (h : Recalls calls t) (c : Call) : Recalls (calls ++ [c]) (t.after c) := by
  -- a call about a name that there was a call about does not count
  have later (name : String) (hn : name ∈ named calls) : firstCall (calls ++ [c]) name = firstCall calls name := by
    obtain ⟨first, hfirst⟩ := Option.isSome_iff_exists.1 (mem_named.1 hn)
    rw [firstCall_append, hfirst, Option.some_or]
  have kept : ((named calls).filter fun name => (firstCall (calls ++ [c]) name).any Call.isRoot) = t.rootAliases := by
    rw [h.roots]
    exact List.filter_congr fun name hn => by rw [later name hn]
  rw [after_eq]
  by_cases known : c.name ∈ named calls
  · rw [if_pos ((h.isAlias _).2 known)]
    have same : named (calls ++ [c]) = named calls := by rw [named_snoc, if_pos known, List.append_nil]
    refine ⟨same ▸ h.names, same ▸ h.nodup, fun name => ?_, by rw [same, kept]⟩
    rw [h.get?]
    by_cases hn : name ∈ named calls
    · rw [later name hn]
    · have other : c.name ≠ name := fun heq => hn (heq ▸ known)
      rw [firstCall_append, firstCall_singleton, if_neg other, Option.or_none]
  · rw [if_neg fun bound => known ((h.isAlias _).1 bound)]
    have more : named (calls ++ [c]) = named calls ++ [c.name] := by rw [named_snoc, if_neg known]
    have first : firstCall (calls ++ [c]) c.name = some c := by
      have none_before : firstCall calls c.name = none := by
        rw [← Option.not_isSome_iff_eq_none, ← mem_named]
        exact known
      rw [firstCall_append, none_before, firstCall_singleton, if_pos rfl, Option.none_or]
    refine ⟨?_, ?_, fun name => ?_, ?_⟩
    · rw [more, ← h.names]
      simp
    · rw [more]
      exact List.nodup_append.2 ⟨h.nodup, List.nodup_singleton _, fun a ha b hb => by
        rw [List.mem_singleton.1 hb]
        exact fun heq => known (heq ▸ ha)⟩
    · rw [get?_add, h.get?, firstCall_append, firstCall_singleton]
      by_cases heq : name = c.name
      · simp [heq]
      · simp [heq, Ne.symm heq]
    · rw [more, List.filter_append, kept, List.filter_singleton, first]
      cases c with
      | root name entity => exact rootAliases_add_root t name entity
      | join name path => exact (rootAliases_add_join t name path).trans (List.append_nil _).symm

/-- any calls are remembered: the induction is on the calls, from the last one backwards -/
theorem run_recalls (calls : List Call) : Recalls calls (run calls) := by
  induction calls using List.reverseRecOn with
  | nil => exact ⟨rfl, List.nodup_nil, fun _ => rfl, rfl⟩
  | append_singleton calls c ih =>
    have step : run (calls ++ [c]) = (run calls).after c := by simp [run, List.foldl_append]
    rw [step]
    exact ih.after c

/-- **A table of aliases is written once, and its list of roots is exact.** After any calls: a name stands for what the
first call about it asked for, and goes on doing so after any more calls; the root aliases are the names that stand for
roots, each once, in the order of the calls that bound them; the size is the number of names bound; a root is turned
down just when its name stands for another entity or a join, a join just when its name is bound, and what is turned down
leaves the table as it was. -/
theorem calls_remembered (calls : List Call) :
    (∀ name, (run calls).get? name = (firstCall calls name).map Call.binding) ∧
    (∀ more name b, (run calls).get? name = some b → (run (calls ++ more)).get? name = some b) ∧
    (run calls).rootAliases = ((named calls).filter fun name => (firstCall calls name).any Call.isRoot) ∧
    (run calls).rootAliases.Nodup ∧
    (∀ name, name ∈ (run calls).rootAliases ↔ ∃ entity, (run calls).get? name = some (.root entity)) ∧
    (run calls).size = Set.ncard { name | (run calls).isAlias name = true } ∧
    (∀ name entity e, (run calls).bindRoot name entity = .error e ↔
      ∃ b, (run calls).get? name = some b ∧ b ≠ .root entity ∧ e = .conflict name b.text entity) ∧
    (∀ name path, ((run calls).bindJoin name path).1 = false ↔ (run calls).isAlias name = true) ∧
    ∀ c, (run calls).accepts c = false → (run calls).after c = run calls := by
  have recalls := run_recalls calls
  refine ⟨recalls.get?, fun more name b bound => ?_, recalls.roots, ?_, fun name => ?_, ?_,
    fun _ _ _ => bindRoot_eq_error, fun _ _ => bindJoin_eq_false, fun _ => after_of_not_accepts⟩
  · rw [recalls.get?] at bound
    obtain ⟨first, hfirst, rfl⟩ := Option.map_eq_some_iff.1 bound
    rw [(run_recalls (calls ++ more)).get?, firstCall_append, hfirst]
    rfl
  · rw [recalls.roots]
    exact recalls.nodup.filter _
  · rw [recalls.roots, List.mem_filter, mem_named, recalls.get?]
    cases firstCall calls name with
    | none => simp
    | some first => cases first <;> simp [Call.isRoot, Call.binding]
  · have bound : { name | (run calls).isAlias name = true } = ((named calls).toFinset : Set String) := by
      ext name
      simpa using recalls.isAlias name
    rw [bound, Set.ncard_coe_finset, List.toFinset_card_of_nodup recalls.nodup, ← recalls.names, List.length_map, size]

/-- a hike and a trail, and then a hut by the name of the hike -/
theorem calls_remembered_hut :
    let calls := [Call.root "h" "Hike", .root "t" "Trail"]
    (run calls).get? "h" = some (.root "Hike") ∧ (run (calls ++ [.root "h" "Hut"])).get? "h" = some (.root "Hike") ∧
    (run calls).rootAliases = ["h", "t"] ∧
    (run calls).bindRoot "h" "Hut" = .error (.conflict "h" "Hike" "Hut") ∧
    (run calls).accepts (.root "h" "Hut") = false ∧ (run calls).after (.root "h" "Hut") = run calls := by
  intro calls
  have remembered := calls_remembered calls
  have bound : (run calls).get? "h" = some (.root "Hike") := remembered.1 "h"
  have refused : (run calls).accepts (.root "h" "Hut") = false := by decide +kernel
  refine ⟨bound, remembered.2.1 _ _ _ bound, ?_, ?_, refused, ?_⟩
  · rw [remembered.2.2.1]
    decide +kernel
  · exact (remembered.2.2.2.2.2.2.1 _ _ _).2 ⟨_, bound, by decide, rfl⟩
  · exact remembered.2.2.2.2.2.2.2.2 _ refused

end AliasTable

end EntitySearch
