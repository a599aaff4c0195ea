/-
A value put in the place of another.

The record of a condition hangs on what its operands stand for, so an operand may be replaced by one that stands for
something else, if it stands `OnlyAsValue`: in a comparison, as a bound of a range, or in a list. Beside everything that
it is compared with, the new operand must be worth what the old one is; then the record is the same
(`record_replaced`). And where there is a record, everything that a subject is compared with is worth something
(`record_value`).

`ResolvedStatement.render_conditions` lifts this to whole queries: the result hangs on the queries of the conditions,
and not on the conditions.
-/
import EntitySearch.Proofs.Render.Written
import EntitySearch.Proofs.Resolve.Compared

namespace EntitySearch

namespace Condition

variable {α β : Type}

mutual

/-- the operand is no subject of a range, a list, a pattern or a null test, and no pattern -/
def OnlyAsValue (b : α) : Condition α → Prop
  | .and cs => OnlyAsValues b cs
  | .or cs => OnlyAsValues b cs
  | .not c => OnlyAsValue b c
  | .compare .. => True
  | .between operand _ _ _ => operand ≠ b
  | .among operand _ _ => operand ≠ b
  | .like operand pattern _ _ => operand ≠ b ∧ pattern ≠ b
  | .isNull operand _ => operand ≠ b

def OnlyAsValues (b : α) : List (Condition α) → Prop
  | [] => True
  | c :: rest => OnlyAsValue b c ∧ OnlyAsValues b rest

end

mutual

/-- an operand that is not there is no subject -/
theorem onlyAsValue_of_not_mem {b : α} : ∀ c : Condition α, b ∉ c.operands → c.OnlyAsValue b
  | .and cs, h => onlyAsValues_of_not_mem cs h
  | .or cs, h => onlyAsValues_of_not_mem cs h
  | .not c, h => onlyAsValue_of_not_mem c h
  | .compare .., _ => trivial
  | .between .., h => fun same => h (same ▸ List.mem_cons_self)
  | .among .., h => fun same => h (same ▸ List.mem_cons_self)
  | .like .., h => by
    simp only [operands, List.mem_cons, List.not_mem_nil, or_false, not_or] at h
    exact ⟨Ne.symm h.1, Ne.symm h.2⟩
  | .isNull .., h => fun same => h (same ▸ List.mem_cons_self)

theorem onlyAsValues_of_not_mem {b : α} : ∀ cs : List (Condition α), b ∉ operandsOf cs → OnlyAsValues b cs
  | [], _ => trivial
  | c :: rest, h => by
    rw [operandsOf, List.mem_append, not_or] at h
    exact ⟨onlyAsValue_of_not_mem c h.1, onlyAsValues_of_not_mem rest h.2⟩

end

mutual

/-- an operand that is there, and only as a value, is compared with another -/
theorem compared_of_onlyAsValue {b : α} : ∀ c : Condition α, c.OnlyAsValue b → b ∈ c.operands →
    ∃ o, (o, b) ∈ c.compared
  | .and cs, only, there => comparedIn_of_onlyAsValues cs only there
  | .or cs, only, there => comparedIn_of_onlyAsValues cs only there
  | .not c, only, there => compared_of_onlyAsValue c only there
  | .compare _ left right, _, there => by
    simp only [operands, List.mem_cons, List.not_mem_nil, or_false] at there
    rcases there with rfl | rfl
    · exact ⟨right, by simp [compared]⟩
    · exact ⟨left, by simp [compared]⟩
  | .between operand lower upper _, only, there => by
    rcases List.mem_cons.1 there with same | there
    · exact absurd same.symm only
    · exact ⟨operand, by simpa [compared] using there⟩
  | .among operand values _, only, there => by
    rcases List.mem_cons.1 there with same | there
    · exact absurd same.symm only
    · exact ⟨operand, List.mem_map_of_mem there⟩
  | .like operand pattern _ _, only, there => by
    simp only [operands, List.mem_cons, List.not_mem_nil, or_false] at there
    rcases there with same | same
    · exact absurd same.symm only.1
    · exact absurd same.symm only.2
  | .isNull operand _, only, there => absurd (List.mem_singleton.1 there).symm only

theorem comparedIn_of_onlyAsValues {b : α} : ∀ cs : List (Condition α), OnlyAsValues b cs → b ∈ operandsOf cs →
    ∃ o, (o, b) ∈ comparedIn cs
  | [], _, there => nomatch there
  | c :: rest, only, there => by
    rcases List.mem_append.1 there with there | there
    · obtain ⟨o, compared⟩ := compared_of_onlyAsValue c only.1 there
      exact ⟨o, List.mem_append_left _ compared⟩
    · obtain ⟨o, compared⟩ := comparedIn_of_onlyAsValues rest only.2 there
      exact ⟨o, List.mem_append_right _ compared⟩

end

/-! ## One operand replaced -/

/-- With `n`, what `h` makes of an operand stands for what the operand does with `m`, except for one, a value. -/
structure Replaces (m : Sense α) (n : Sense β) (h : α → β) (b : α) : Prop where
  convert : n.convert = m.convert
  side : ∀ o, o ≠ b → n.side (h o) = m.side o
  subject : m.subject b = none
  subject' : n.subject (h b) = none

namespace Replaces

variable {m : Sense α} {n : Sense β} {h : α → β} {b : α}

theorem same_subject (r : Replaces m n h b) (o : α) : n.subject (h o) = m.subject o := by
  by_cases ho : o = b
  · rw [ho, r.subject, r.subject']
  · simp only [Sense.subject, r.side o ho]

theorem same_comparand (r : Replaces m n h b) {o : α} (ho : o ≠ b) : n.comparand (h o) = m.comparand o := by
  simp only [Sense.comparand, r.side o ho]

/-- the new operand is worth what the old one is, beside what it is compared with -/
def Worth (m : Sense α) (n : Sense β) (h : α → β) (b : α) (pairs : List (α × α)) : Prop :=
  ∀ o s, (o, b) ∈ pairs → m.subject o = some s → n.value s (h b) = m.value s b

theorem same_value (r : Replaces m n h b) {pairs : List (α × α)} (worth : Worth m n h b pairs) {o x : α}
    (hx : (o, x) ∈ pairs) {s : Subject} (hs : m.subject o = some s) : n.value s (h x) = m.value s x := by
  by_cases same : x = b
  · subst same
    exact worth o s hx hs
  · simp only [Sense.value, r.same_comparand same, r.convert]

theorem compare (r : Replaces m n h b) (rel : Relation) {left right : α}
    (worth : Worth m n h b [(left, right), (right, left)]) :
    n.compare rel (h left) (h right) = m.compare rel left right := by
  simp only [Sense.compare, r.same_subject, Option.bind_eq_bind]
  congr 1
  · refine Option.bind_congr fun s hs => ?_
    rw [r.same_value worth (by simp) hs]
  · funext _
    refine Option.bind_congr fun s hs => ?_
    rw [r.same_value worth (by simp) hs]

theorem between (r : Replaces m n h b) {operand lower upper : α}
    (worth : Worth m n h b [(operand, lower), (operand, upper)]) :
    n.between (h operand) (h lower) (h upper) = m.between operand lower upper := by
  simp only [Sense.between, r.same_subject, Option.bind_eq_bind]
  refine Option.bind_congr fun s hs => ?_
  rw [r.same_value worth (by simp) hs, r.same_value worth (by simp) hs]

theorem values {s : Subject} {vs : List α} (each : ∀ v ∈ vs, n.value s (h v) = m.value s v) :
    (vs.map h).mapM (n.value s) = vs.mapM (m.value s) := by
  induction vs with
  | nil => rfl
  | cons v rest ih =>
    rw [List.forall_mem_cons] at each
    simp only [List.map_cons, List.mapM_cons, each.1, ih each.2]

theorem among (r : Replaces m n h b) {operand : α} {values : List α}
    (worth : Worth m n h b (values.map fun v => (operand, v))) :
    n.among (h operand) (values.map h) = m.among operand values := by
  simp only [Sense.among, r.same_subject, Option.bind_eq_bind]
  refine Option.bind_congr fun s hs => ?_
  rw [Replaces.values fun v hv => r.same_value worth (List.mem_map_of_mem hv) hs]

theorem like (r : Replaces m n h b) {operand pattern : α} (only : pattern ≠ b) (escape : Option Char) :
    n.like (h operand) (h pattern) escape = m.like operand pattern escape := by
  simp only [Sense.like, r.same_subject, r.same_comparand only]

theorem isNull (r : Replaces m n h b) (operand : α) : n.isNull (h operand) = m.isNull operand := by
  simp only [Sense.isNull, r.same_subject]

theorem Worth.mono {pairs pairs' : List (α × α)} (worth : Worth m n h b pairs) (sub : ∀ x ∈ pairs', x ∈ pairs) :
    Worth m n h b pairs' := fun o s ho hs => worth o s (sub _ ho) hs

end Replaces

variable {m : Sense α} {n : Sense β} {h : α → β} {b : α}

mutual

/-- **A value put in the place of another leaves the record as it is**, if it is worth the same. -/
theorem record_replaced (r : Replaces m n h b) (entity : String) : ∀ c : Condition α, c.OnlyAsValue b →
    Replaces.Worth m n h b c.compared → (c.map h).record n entity = c.record m entity
  | .and cs, only, worth => by rw [map, record, record, recordAll_replaced r entity cs only worth]
  | .or cs, only, worth => by rw [map, record, record, recordAll_replaced r entity cs only worth]
  | .not c, only, worth => by rw [map, record, record, record_replaced r entity c only worth]
  | .compare rel left right, _, worth => by rw [map, record, record, r.compare rel worth]
  | .between .., _, worth => by rw [map, record, record, r.between worth]
  | .among .., _, worth => by rw [map, record, record, r.among worth]
  | .like .., only, _ => by rw [map, record, record, r.like only.2]
  | .isNull .., _, _ => by rw [map, record, record, r.isNull]

theorem recordAll_replaced (r : Replaces m n h b) (entity : String) : ∀ cs : List (Condition α), OnlyAsValues b cs →
    Replaces.Worth m n h b (comparedIn cs) → recordAll n entity (mapAll h cs) = recordAll m entity cs
  | [], _, _ => rfl
  | c :: rest, only, worth => by
    rw [mapAll, recordAll, recordAll,
      record_replaced r entity c only.1 (worth.mono fun _ hx => List.mem_append_left _ hx),
      recordAll_replaced r entity rest only.2 (worth.mono fun _ hx => List.mem_append_right _ hx)]

end

theorem recordIfGiven_replaced (r : Replaces m n h b) (entity : String) (c : Option (Condition α))
    (only : ∀ d ∈ c, d.OnlyAsValue b) (worth : ∀ d ∈ c, Replaces.Worth m n h b d.compared) :
    recordIfGiven n entity (c.map (map h)) = recordIfGiven m entity c := by
  cases c with
  | none => rfl
  | some d => exact record_replaced r entity d (only d rfl) (worth d rfl)

/-! ## Values that are missing -/

theorem value_of_mapM {s : Subject} {vs : List α} {xs : List Value} (h : vs.mapM (m.value s) = some xs) :
    ∀ v ∈ vs, ∃ x, m.value s v = some x := by
  induction vs generalizing xs with
  | nil => simp
  | cons v rest ih =>
    simp only [List.mapM_cons, Option.bind_eq_bind, Option.bind_eq_some_iff] at h
    obtain ⟨x, hx, ys, hys, -⟩ := h
    exact List.forall_mem_cons.2 ⟨⟨x, hx⟩, ih hys⟩

mutual

/-- **Where there is a record**, everything that a subject is compared with is worth something, or is a subject. -/
theorem record_value {entity : String} {o x : α} {s : Subject} (hs : m.subject o = some s) (hx : m.subject x = none) :
    ∀ (c : Condition α) {t : Trace}, c.record m entity = some t → (o, x) ∈ c.compared → ∃ v, m.value s x = some v
  | .and cs, t, ht, h => by
    obtain ⟨ts, hts, -⟩ := Option.map_eq_some_iff.1 ht
    exact recordAll_value hs hx cs hts h
  | .or cs, t, ht, h => by
    obtain ⟨ts, hts, -⟩ := Option.map_eq_some_iff.1 ht
    exact recordAll_value hs hx cs hts h
  | .not c, t, ht, h => by
    obtain ⟨t', ht', -⟩ := Option.map_eq_some_iff.1 ht
    exact record_value hs hx c ht' h
  | .compare rel left right, t, ht, h => by
    obtain ⟨test, htest, -⟩ := Option.map_eq_some_iff.1 ht
    simp only [compared, List.mem_cons, Prod.mk.injEq, List.not_mem_nil, or_false] at h
    refine Option.ne_none_iff_exists'.1 fun missing => ?_
    rcases h with ⟨rfl, rfl⟩ | ⟨rfl, rfl⟩ <;> simp [Sense.compare, hs, hx, missing] at htest
  | .between operand lower upper negated, t, ht, h => by
    obtain ⟨test, htest, -⟩ := Option.map_eq_some_iff.1 ht
    simp only [compared, List.mem_cons, Prod.mk.injEq, List.not_mem_nil, or_false] at h
    refine Option.ne_none_iff_exists'.1 fun missing => ?_
    rcases h with ⟨rfl, rfl⟩ | ⟨rfl, rfl⟩ <;> simp [Sense.between, hs, missing] at htest
  | .among operand values negated, t, ht, h => by
    obtain ⟨test, htest, -⟩ := Option.map_eq_some_iff.1 ht
    simp only [compared, List.mem_map, Prod.mk.injEq] at h
    obtain ⟨v, hv, rfl, rfl⟩ := h
    simp only [Sense.among, hs, Option.bind_eq_bind, Option.bind_some, Option.bind_eq_some_iff] at htest
    obtain ⟨xs, hxs, -⟩ := htest
    exact value_of_mapM hxs v hv
  | .like .., _, _, h => nomatch h
  | .isNull .., _, _, h => nomatch h

theorem recordAll_value {entity : String} {o x : α} {s : Subject} (hs : m.subject o = some s)
    (hx : m.subject x = none) : ∀ (cs : List (Condition α)) {ts : List Trace}, recordAll m entity cs = some ts →
      (o, x) ∈ comparedIn cs → ∃ v, m.value s x = some v
  | [], _, _, h => nomatch h
  | c :: rest, ts, hts, h => by
    simp only [recordAll, Option.bind_eq_bind, Option.bind_eq_some_iff] at hts
    obtain ⟨t, ht, us, hus, -⟩ := hts
    rcases List.mem_append.1 h with h | h
    · exact record_value hs hx c ht h
    · exact recordAll_value hs hx rest hus h

end

end Condition

/-! ## Whole queries -/

/-- **The result hangs on the queries of the conditions**: a query with other conditions in WHERE and HAVING has the
same result, or has none either, if these have the same queries. -/
theorem ResolvedStatement.render_conditions {Q : Type} {c : Catalog} {f : Factory Q} (s : ResolvedStatement)
    {filter having : Option (Condition ResolvedOperand)}
    (filtered : (Render.query ⟨c, s.target.entity, f⟩ (Clause.filter.subject s.aliases) filter).toOption =
      (Render.query ⟨c, s.target.entity, f⟩ (Clause.filter.subject s.aliases) s.filter).toOption)
    (grouped : Option.Rel (fun d' d =>
      (Render.query ⟨c, s.target.entity, f⟩ (Clause.having.subject s.aliases) (some d')).toOption =
        (Render.query ⟨c, s.target.entity, f⟩ (Clause.having.subject s.aliases) (some d)).toOption) having s.having) :
    (({ s with filter, having } : ResolvedStatement).render c f).toOption = (s.render c f).toOption := by
  simp only [Clause.subject] at filtered grouped
  simp only [ResolvedStatement.render, toOption_bind, filtered]
  refine Option.bind_congr fun _ _ => Option.bind_congr fun _ _ => ?_
  generalize s.having = d at grouped ⊢
  cases grouped with
  | none => rfl
  | some same => rw [toOption_bind, toOption_bind, toOption_map, toOption_map, same]

end EntitySearch
