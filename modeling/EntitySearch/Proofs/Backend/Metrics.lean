/-
Which of the aggregates asked for are metrics of a search request.

Metrics are kept under names, and the names of two aggregates are the same in one way only: a count of a property
`distinct_p` is called what a distinct count of `p` is (`metricKey_eq_iff`). Of aggregates with one name the last is
kept (`lookup_metrics`), and there are as many metrics as names (`length_metrics`).

`ofResult_complete_iff`: a request has all aggregates asked for, each under its name, exactly when no two of them
`Clash` in that way.
-/
import EntitySearch.Backend.Request
import EntitySearch.Proofs.Lookup
import Mathlib.Data.Finset.Card
import Mathlib.Data.List.Induction

namespace EntitySearch

namespace Json

/-! ## Members of an object -/

theorem lookup_put (key : String) (value : Json) (members : List (String × Json)) (k : String) :
    (put key value members).lookup k = if k = key then some value else members.lookup k :=
  lookup_replaced (put key value) rfl (fun _ _ _ => rfl) members k

/-- a key that is there already keeps its place -/
theorem keys_put (key : String) (value : Json) (members : List (String × Json)) :
    (put key value members).map (·.1) =
      if key ∈ members.map (·.1) then members.map (·.1) else members.map (·.1) ++ [key] := by
  induction members with
  | nil => simp [put]
  | cons m rest ih =>
    obtain ⟨first, v⟩ := m
    by_cases hf : first = key
    · simp [put, hf]
    · rw [put, if_neg (by simpa using hf), List.map_cons, ih]
      by_cases h : key ∈ rest.map (·.1) <;> simp_all [Ne.symm hf]

theorem mem_keys_put {key : String} {value : Json} {members : List (String × Json)} {k : String} :
    k ∈ (put key value members).map (·.1) ↔ k ∈ members.map (·.1) ∨ k = key := by
  rw [keys_put]
  split
  · exact ⟨.inl, fun h => h.elim id fun same => same ▸ ‹_›⟩
  · rw [List.mem_append, List.mem_singleton]

theorem nodup_keys_put {members : List (String × Json)} (h : (members.map (·.1)).Nodup) (key : String) (value : Json) :
    ((put key value members).map (·.1)).Nodup := by
  rw [keys_put]
  split
  · exact h
  · exact List.nodup_append.2 ⟨h, List.nodup_singleton key, fun k hk k' hk' same => ‹¬_› (by
      rwa [← List.mem_singleton.1 hk', ← same])⟩

end Json

namespace Request

open Json (one)

/-! ## Names of metrics -/

/-- **Two metrics have one name** only if one of them is a count of a property whose name begins like a distinct
count. -/
theorem metricKey_eq_iff {f g : Aggregation} {p q : String} :
    metricKey f p = metricKey g q ↔ f = g ∧ p = q ∨
      (f = .count ∧ g = .countDistinct ∧ p = "distinct_" ++ q) ∨
      (f = .countDistinct ∧ g = .count ∧ q = "distinct_" ++ p) := by
  cases f <;> cases g <;> simp [metricKey, Aggregation.name, ← String.toList_inj]
  exact eq_comm

theorem metric_inj {f g : Aggregation} {p q : String} : metric f p = metric g q ↔ f = g ∧ p = q := by
  cases f <;> cases g <;> simp [metric, metricKind, Json.one]

theorem mem_aggregates {projections : List Projection} {f : Aggregation} {p : String} :
    (f, p) ∈ aggregates projections ↔ .aggregate f p ∈ projections := by
  rw [aggregates, List.mem_filterMap]
  constructor
  · rintro ⟨item, hitem, found⟩
    split at found <;> cases found
    exact hitem
  · exact fun h => ⟨_, h, rfl⟩

/-! ## Metrics that are kept -/

/-- the name of an aggregate among the metrics -/
abbrev keyOf (a : Aggregation × String) : String := metricKey a.1 a.2

/-- **Of the aggregates with one name the last is kept.** -/
theorem lookup_metrics (projections : List Projection) (key : String) :
    (metrics projections).lookup key =
      ((aggregates projections).reverse.find? fun a => key == keyOf a).map fun a => metric a.1 a.2 := by
  rw [metrics]
  induction aggregates projections using List.reverseRecOn with
  | nil => rfl
  | append_singleton asked a ih =>
    rw [List.foldl_append, List.foldl_cons, List.foldl_nil, Json.lookup_put, ih, List.reverse_append,
      List.reverse_singleton, List.singleton_append, List.find?_cons]
    by_cases h : key = keyOf a
    · simp [h]
    · rw [if_neg h, beq_eq_false_iff_ne.2 h]

/-- every name is kept, and only once -/
theorem keys_metrics (projections : List Projection) :
    ((metrics projections).map (·.1)).Nodup ∧
      ∀ key, key ∈ (metrics projections).map (·.1) ↔ ∃ a ∈ aggregates projections, keyOf a = key := by
  rw [metrics]
  induction aggregates projections using List.reverseRecOn with
  | nil => simp
  | append_singleton asked a ih =>
    obtain ⟨distinct, named⟩ := ih
    rw [List.foldl_append, List.foldl_cons, List.foldl_nil]
    refine ⟨Json.nodup_keys_put distinct .., fun key => ?_⟩
    rw [Json.mem_keys_put, named]
    simp [or_and_right, exists_or, eq_comm]

/-- there are as many metrics as names -/
theorem length_metrics (projections : List Projection) :
    (metrics projections).length = ((aggregates projections).toFinset.image keyOf).card := by
  obtain ⟨distinct, named⟩ := keys_metrics projections
  rw [← List.length_map (·.1), ← List.toFinset_card_of_nodup distinct]
  congr 1
  ext key
  simpa using named key

/-! ## The metrics of a request -/

section

variable {Q : Type} (toJson : Q → Json) (r : QueryResult Q)

/-- where a request has its metrics: the aggregations, or with GROUP BY those inside the grouping -/
def metricsPart (request : Json) : List (String × Json) :=
  let top := request.get? "aggs"
  let found := if r.groupBy.isEmpty then top else (top.bind (Json.get? "group_by")).bind (Json.get? "aggs")
  match found with
  | some (.object members) => members
  | _ => []

/-- the members before the aggregations of a request have other names, and so has the one behind -/
theorem ofResult_aggs : (ofResult toJson r).get? "aggs" = aggregations r := by
  simp only [ofResult, Json.get?, List.lookup_append, lookup_unless, ne_eq, String.reduceEq, not_false_eq_true,
    lookup_cons_ite, if_false, List.lookup_nil, Option.none_or]
  cases aggregations r with
  | some found => simp [lookup_cons_ite]
  | none => cases r.having <;> simp [lookup_cons_ite]

theorem metricsPart_ofResult : metricsPart r (ofResult toJson r) = metrics r.projections := by
  rw [metricsPart, ofResult_aggs, aggregations]
  cases hm : metrics r.projections <;> cases hg : r.groupBy.isEmpty <;>
    simp [Json.get?, lookup_cons_ite, one]

/-- two aggregates with one name are asked for -/
def Clash (projections : List Projection) : Prop :=
  ∃ p, .aggregate .count ("distinct_" ++ p) ∈ projections ∧ .aggregate .countDistinct p ∈ projections

/-- The metrics of a request are the aggregates asked for. -/
structure Complete (part : List (String × Json)) : Prop where
  kept : ∀ f p, .aggregate f p ∈ r.projections → part.lookup (metricKey f p) = some (metric f p)
  number : part.length = (aggregates r.projections).toFinset.card
  distinct : ∀ f p g q, .aggregate f p ∈ r.projections → .aggregate g q ∈ r.projections →
    metricKey f p = metricKey g q → f = g ∧ p = q

/-- without a clash the names tell the aggregates apart -/
theorem keyOf_injOn {projections : List Projection} (h : ¬Clash projections) :
    Set.InjOn keyOf (aggregates projections).toFinset := by
  rintro ⟨f, p⟩ hf ⟨g, q⟩ hg same
  rw [Finset.mem_coe, List.mem_toFinset, mem_aggregates] at hf hg
  rcases metricKey_eq_iff.1 same with ⟨rfl, rfl⟩ | ⟨rfl, rfl, rfl⟩ | ⟨rfl, rfl, rfl⟩
  · rfl
  · exact absurd ⟨q, hf, hg⟩ h
  · exact absurd ⟨p, hg, hf⟩ h

/-- **A request has all aggregates asked for, unless two of them clash**, and if they do it has not. -/
theorem ofResult_complete_iff :
    Complete r (metricsPart r (ofResult toJson r)) ↔ ¬Clash r.projections := by
  rw [metricsPart_ofResult]
  constructor
  · rintro complete ⟨p, counted, distinct⟩
    have same : metricKey .count ("distinct_" ++ p) = metricKey .countDistinct p :=
      metricKey_eq_iff.2 (.inr (.inl ⟨rfl, rfl, rfl⟩))
    cases (complete.distinct _ _ _ _ counted distinct same).1
  · intro free
    have injective := keyOf_injOn free
    refine ⟨fun f p asked => ?_, ?_, fun f p g q hf hg same => ?_⟩
    · have there := mem_aggregates.2 asked
      rw [lookup_metrics]
      obtain ⟨a, found⟩ : ∃ a, (aggregates r.projections).reverse.find? (fun a => metricKey f p == keyOf a) = some a :=
        Option.isSome_iff_exists.1 (List.find?_isSome.2 ⟨(f, p), List.mem_reverse.2 there, beq_self_eq_true _⟩)
      have named : keyOf (f, p) = keyOf a := by simpa using List.find?_some found
      have listed : a ∈ aggregates r.projections := List.mem_reverse.1 (List.mem_of_find?_eq_some found)
      rw [found, ← injective (by simpa using there) (by simpa using listed) named]
      rfl
    · rw [length_metrics, Finset.card_image_of_injOn injective]
    · exact Prod.mk.inj (injective (by simpa using mem_aggregates.2 hf) (by simpa using mem_aggregates.2 hg) same)

end

/-- a count of `distinct_id`, and how many different values `id` has -/
def clashing : QueryResult Json :=
  ⟨one "match_all" (.object []), "Book", "Book",
    [.aggregate .count "distinct_id", .aggregate .countDistinct "id"], [], [], none, false⟩

/-- Of the two aggregates the count is lost. -/
theorem clashing_loses :
    metricsPart clashing (ofResult id clashing) = [("count_distinct_id", metric .countDistinct "id")] ∧
      .aggregate .count "distinct_id" ∈ clashing.projections ∧
      (aggregates clashing.projections).toFinset.card = 2 ∧
      metricKey .count "distinct_id" = metricKey .countDistinct "id" ∧
      metric .count "distinct_id" ≠ metric .countDistinct "id" := by
  refine ⟨rfl, by simp [clashing], by decide +kernel, by decide +kernel, ?_⟩
  rw [ne_eq, metric_inj]
  decide

end Request

end EntitySearch
