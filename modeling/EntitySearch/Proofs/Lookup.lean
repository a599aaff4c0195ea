/-
Entries found by their names.

Aliases, parameters, the members of an object: all are lists of entries, of which the first with a name counts. A new
entry stands behind the others (`lookup_snoc`), or takes the place of the first with its name (`lookup_replaced`).
-/
import EntitySearch.Text.Basic

namespace EntitySearch

variable {α : Type}

theorem lookup_cons_ite (name : String) (a : α) (l : List (String × α)) (x : String) :
    ((name, a) :: l).lookup x = if x = name then some a else l.lookup x := by
  by_cases h : x = name
  · simp [h]
  · simp [List.lookup_cons, beq_eq_false_iff_ne.2 h, h]

theorem lookup_snoc (l : List (String × α)) (name : String) (a : α) (x : String) :
    (l ++ [(name, a)]).lookup x = (l.lookup x).or (if x = name then some a else none) := by
  rw [List.lookup_append, lookup_cons_ite, List.lookup_nil]

/-- an entry of another name makes no difference, be it there or not -/
theorem lookup_unless (b : Bool) {name x : String} (a : α) (other : x ≠ name) :
    (if b then [] else [(name, a)]).lookup x = none := by
  cases b <;> simp [lookup_cons_ite, other]

/-- an entry that is put in the place of the first with its name, or behind all others if there is none -/
theorem lookup_replaced (put : List (String × α) → List (String × α)) {name : String} {a : α}
    (put_nil : put [] = [(name, a)])
    (put_cons : ∀ n b rest, put ((n, b) :: rest) = if n == name then (n, a) :: rest else (n, b) :: put rest)
    (l : List (String × α)) (x : String) : (put l).lookup x = if x = name then some a else l.lookup x := by
  induction l with
  | nil => rw [put_nil, lookup_cons_ite]
  | cons entry rest ih =>
    obtain ⟨first, b⟩ := entry
    by_cases hf : first = name
    · subst hf
      rw [put_cons, if_pos (beq_self_eq_true _), lookup_cons_ite, lookup_cons_ite]
      split <;> rfl
    · rw [put_cons, if_neg (by simpa using hf), lookup_cons_ite, lookup_cons_ite, ih]
      by_cases h : x = first
      · rw [if_pos h, if_neg (h ▸ hf), if_pos h]
      · rw [if_neg h, if_neg h]

theorem lookup_filter {l : List (String × α)} {name p : String} (other : name ≠ p) :
    (l.filter (·.1 ≠ p)).lookup name = l.lookup name := by
  induction l with
  | nil => rfl
  | cons entry rest ih =>
    obtain ⟨first, a⟩ := entry
    rw [lookup_cons_ite]
    by_cases there : first = p
    · rw [List.filter_cons_of_neg (by simpa using there), ih, if_neg (there ▸ other)]
    · rw [List.filter_cons_of_pos (by simpa using there), lookup_cons_ite, ih]

theorem mem_of_lookup {l : List (String × α)} {name : String} {a : α} (h : l.lookup name = some a) : (name, a) ∈ l := by
  obtain ⟨before, after, rfl, -⟩ := List.lookup_eq_some_iff.1 h
  simp

end EntitySearch
