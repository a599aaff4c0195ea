/-
The values in a record.

A record holds the values that properties, and aggregates of them, are compared with in its condition, no more and no
fewer (`record_beside`); what is compared with one subject is found in a test of it (`record_compares`). So a value can
be read off a record: conditions that differ in one value only leave different records (`value_of_record`).
-/
import EntitySearch.Proofs.Render.Leaves
import EntitySearch.Proofs.Render.Substitution

namespace EntitySearch

/-- the value that the second operand stands for beside the first -/
def Sense.beside {α : Type} (m : Sense α) (pair : α × α) : Option Value := do
  let s ← m.subject pair.1
  m.value s pair.2

/-- a record tests a property, or an aggregate of one, for a value -/
def Trace.Compares (t : Trace) (s : Subject) (v : Value) : Prop :=
  ∃ l, (l, v) ∈ t.values ∧ l.1 = s.aggregation ∧ l.2.property = s.property

namespace Condition

variable {α : Type} {m n : Sense α} {entity : String}

theorem filterMap_beside {pairs : List (α × α)} {vs : List (Positive × Value)} (h : List.Forall₂ m.Beside pairs vs) :
    pairs.filterMap m.beside = vs.map Prod.snd := by
  induction h with
  | nil => rfl
  | cons beside _ ih =>
    obtain ⟨s, hs, -, -, value⟩ := beside
    rw [List.filterMap_cons_some (by rw [Sense.beside, hs]; exact value), ih, List.map_cons]

/-- **The values in a record** are those that subjects are compared with. -/
theorem record_beside {c : Condition α} {t : Trace} (h : c.record m entity = some t) :
    (t.values.map Prod.snd).Perm (c.compared.filterMap m.beside) := by
  obtain ⟨vs, perm, each⟩ := record_values h
  have subjects_only : (c.compared.filter fun pair => m.isSubject pair.1).filterMap m.beside =
      c.compared.filterMap m.beside := by
    rw [List.filterMap_filter]
    congr 1
    funext pair
    cases hs : m.subject pair.1 <;> simp [Sense.isSubject, Sense.beside, hs]
  rw [← subjects_only, filterMap_beside each]
  exact (perm.map _).symm

/-- what a subject is compared with is in the record -/
theorem record_compares {c : Condition α} {t : Trace} (h : c.record m entity = some t) {o x : α} {s : Subject}
    {v : Value} (compared : (o, x) ∈ c.compared) (hs : m.subject o = some s) (hv : m.value s x = some v) :
    t.Compares s v := by
  obtain ⟨vs, perm, each⟩ := record_values h
  have listed : (o, x) ∈ c.compared.filter fun pair => m.isSubject pair.1 :=
    List.mem_filter.2 ⟨compared, Sense.isSubject_of_subject hs⟩
  obtain ⟨⟨l, y⟩, hl, s', hs', aggregation, property, value⟩ := forall₂_right each.flip _ listed
  cases hs.symm.trans hs'
  cases hv.symm.trans value
  exact ⟨l, perm.subset hl, aggregation, property⟩

/-- of two tests, one of which implies the other, that as many members of a list pass -/
theorem passes_of_countP_eq {β : Type} {l : List β} {p q : β → Bool} (implies : ∀ a ∈ l, p a = true → q a = true)
    (number : l.countP p = l.countP q) {a : β} (ha : a ∈ l) (hq : q a = true) : p a = true := by
  rw [List.countP_eq_countP_filter_add l q p] at number
  have kept : (l.filter p).countP q = l.countP p := by
    rw [List.countP_eq_length_filter, List.countP_eq_length_filter, List.filter_eq_self.2]
    intro b hb
    exact implies b (List.mem_of_mem_filter hb) (List.of_mem_filter hb)
  have none_left : (l.filter fun b => !p b).countP q = 0 := by omega
  by_contra hp
  exact List.countP_eq_zero.1 none_left a (List.mem_filter.2 ⟨ha, by simpa using hp⟩) hq

/-- **A value can be read off a record**: where two senses differ in nothing but the value of one operand, which is
compared, they leave one record only if the value is the same. -/
theorem value_of_record {c : Condition α} {t : Trace} (first : c.record m entity = some t)
    (second : c.record n entity = some t) {b : α} {x y : Value}
    (others : ∀ pair, pair.2 ≠ b → n.beside pair = m.beside pair)
    (own : ∀ o, (o, b) ∈ c.compared → m.beside (o, b) = some x ∧ n.beside (o, b) = some y)
    (compared : ∃ o, (o, b) ∈ c.compared) : x = y := by
  classical
  have number : c.compared.countP (fun pair => n.beside pair == some x) =
      c.compared.countP fun pair => m.beside pair == some x := by
    rw [← List.count_filterMap, ← List.count_filterMap]
    exact ((record_beside second).symm.trans (record_beside first)).count_eq x
  obtain ⟨o, compared⟩ := compared
  have there : (n.beside (o, b) == some x) = true := by
    refine passes_of_countP_eq (fun pair hpair value => ?_) number compared (beq_iff_eq.2 (own o compared).1)
    by_cases same : pair.2 = b
    · obtain ⟨o', b'⟩ := pair
      subst same
      exact beq_iff_eq.2 (own o' hpair).1
    · rwa [← others pair same]
  rw [(own o compared).2, beq_iff_eq, Option.some.injEq] at there
  exact there.symm

end Condition

end EntitySearch
