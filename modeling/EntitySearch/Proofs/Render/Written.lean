/-
The record of what is written.

The record of a query hangs on nothing but what the operands of its condition stand for. `Condition.record` reads it off
a condition over any operands that have a `Sense`; resolving keeps it (`traverse_record`), and the record of a resolved
condition is read off so (`record_sense`). So the queries of a result are the records of the conditions as they are
written (`render_resolve_records`), and conditions that stand for the same have the same query, whatever names they use.
-/
import EntitySearch.Proofs.Render.Record
import EntitySearch.Proofs.Render.Statement

namespace EntitySearch

/-! ## The record of what is written -/

namespace Condition

variable {α β : Type}

mutual

/-- the record of a condition over operands that stand for something -/
def record (m : Sense α) (entity : String) : Condition α → Option Trace
  | .and cs => (recordAll m entity cs).map .conj
  | .or cs => (recordAll m entity cs).map .or
  | .not c => (record m entity c).map .not
  | .compare r left right => (m.compare r left right).map (.ofPositive entity false)
  | .between operand lower upper negated => (m.between operand lower upper).map (.ofPositive entity negated)
  | .among operand values negated => (m.among operand values).map (.ofPositive entity negated)
  | .like operand pattern escape negated => (m.like operand pattern escape).map (.ofPositive entity negated)
  | .isNull operand negated => (m.isNull operand).map (.ofPositive entity negated)

def recordAll (m : Sense α) (entity : String) : List (Condition α) → Option (List Trace)
  | [] => some []
  | c :: rest => do some ((← record m entity c) :: (← recordAll m entity rest))

end

mutual

/-- resolving keeps the record -/
theorem traverse_record {ε : Type} {f : α → Except ε β} {m : Sense α} {n : Sense β} (agree : Agree f m n)
    (entity : String) : ∀ (c : Condition α) {d : Condition β}, traverse f c = .ok d →
      d.record n entity = c.record m entity
  | .and cs, d, h => by
    simp only [traverse, bind_eq_ok, Except.ok.injEq] at h
    obtain ⟨ds, hds, rfl⟩ := h
    rw [record, record, traverseAll_record agree entity cs hds]
  | .or cs, d, h => by
    simp only [traverse, bind_eq_ok, Except.ok.injEq] at h
    obtain ⟨ds, hds, rfl⟩ := h
    rw [record, record, traverseAll_record agree entity cs hds]
  | .not c, d, h => by
    simp only [traverse, bind_eq_ok, Except.ok.injEq] at h
    obtain ⟨d', hd, rfl⟩ := h
    rw [record, record, traverse_record agree entity c hd]
  | .compare r left right, d, h => by
    simp only [traverse, bind_eq_ok, Except.ok.injEq] at h
    obtain ⟨l, hl, r', hr, rfl⟩ := h
    simp only [record, Sense.compare, agree.subject hl, agree.subject hr, agree.value _ hl, agree.value _ hr]
  | .between operand lower upper negated, d, h => by
    simp only [traverse, bind_eq_ok, Except.ok.injEq] at h
    obtain ⟨o, ho, l, hl, u, hu, rfl⟩ := h
    simp only [record, Sense.between, agree.subject ho, agree.value _ hl, agree.value _ hu]
  | .among operand values negated, d, h => by
    simp only [traverse, bind_eq_ok, Except.ok.injEq, mapM_eq_ok] at h
    obtain ⟨o, ho, vs, hvs, rfl⟩ := h
    simp only [record, Sense.among, agree.subject ho, agree.values _ hvs]
  | .like operand pattern escape negated, d, h => by
    simp only [traverse, bind_eq_ok, Except.ok.injEq] at h
    obtain ⟨o, ho, p, hp, rfl⟩ := h
    simp only [record, Sense.like, agree.subject ho, agree.comparand hp]
  | .isNull operand negated, d, h => by
    simp only [traverse, bind_eq_ok, Except.ok.injEq] at h
    obtain ⟨o, ho, rfl⟩ := h
    simp only [record, Sense.isNull, agree.subject ho]

theorem traverseAll_record {ε : Type} {f : α → Except ε β} {m : Sense α} {n : Sense β} (agree : Agree f m n)
    (entity : String) : ∀ (cs : List (Condition α)) {ds : List (Condition β)}, traverseAll f cs = .ok ds →
      recordAll n entity ds = recordAll m entity cs
  | [], ds, h => by
    cases h
    rfl
  | c :: rest, ds, h => by
    simp only [traverseAll, bind_eq_ok, Except.ok.injEq] at h
    obtain ⟨d, hd, es, hes, rfl⟩ := h
    rw [recordAll, recordAll, traverse_record agree entity c hd, traverseAll_record agree entity rest hes]

end

end Condition

namespace Render

variable {convert : Conversion} {subject : SubjectOf}

/-! ### What stands for something can be tested -/

theorem subject_of_sense {o : ResolvedOperand} {s : Subject} (h : (sense convert subject).subject o = some s) :
    subject o = .ok (some s) := by
  simp only [Sense.subject, sense, side] at h
  cases hs : subject o with
  | error e => simp [hs] at h
  | ok found =>
    cases found with
    | none =>
      rw [hs] at h
      cases hv : o.value? <;> simp [hv] at h
    | some s' =>
      rw [hs] at h
      cases h
      rfl

theorem comparand_of_sense {o : ResolvedOperand} {v : Comparand}
    (h : (sense convert subject).comparand o = some v) : subject o = .ok none ∧ o.value? = some v := by
  simp only [Sense.comparand, sense, side] at h
  cases hs : subject o with
  | error e => simp [hs] at h
  | ok found =>
    cases found with
    | none =>
      rw [hs] at h
      cases hv : o.value? with
      | none => simp [hv] at h
      | some w =>
        simp only [hv, Option.map_some, Option.some.injEq] at h
        exact ⟨rfl, congrArg some h⟩
    | some s' => simp [hs] at h

theorem comparand_of_value? {property operand : ResolvedOperand} {v : Comparand} (h : operand.value? = some v) :
    property.comparand operand = .ok v := by
  cases operand with
  | path p => cases h
  | aggregate a => cases h
  | _ =>
    simp only [ResolvedOperand.value?, Option.some.injEq] at h
    exact congrArg Except.ok h

theorem value_of_sense {o : ResolvedOperand} {s : Subject} {x : Value}
    (h : (sense convert subject).value s o = some x) :
    ∃ v, subject o = .ok none ∧ (∀ property, ResolvedOperand.comparand property o = .ok v) ∧ convert s v = .ok x := by
  obtain ⟨v, hv, hx⟩ := Option.bind_eq_some_iff.1 h
  obtain ⟨none_found, value⟩ := comparand_of_sense hv
  refine ⟨v, none_found, fun _ => comparand_of_value? value, ?_⟩
  change (convert s v).toOption = some x at hx
  cases hc : convert s v with
  | error e => simp [hc, Except.toOption] at hx
  | ok y =>
    simp only [hc, Except.toOption, Option.some.injEq] at hx
    rw [hx]

theorem values_of_sense {os : List ResolvedOperand} {s : Subject} {xs : List Value}
    (h : os.mapM ((sense convert subject).value s) = some xs) (property : ResolvedOperand) :
    ∃ vs, os.mapM property.comparand = .ok vs ∧ vs.mapM (convert s) = .ok xs := by
  induction os generalizing xs with
  | nil =>
    cases h
    exact ⟨[], rfl, rfl⟩
  | cons o rest ih =>
    simp only [List.mapM_cons, Option.bind_eq_bind, Option.bind_eq_some_iff, Option.pure_def, Option.some.injEq] at h
    obtain ⟨x, hx, ys, hys, rfl⟩ := h
    obtain ⟨v, -, hv, hconvert⟩ := value_of_sense hx
    obtain ⟨vs, hvs, hys⟩ := ih hys
    exact ⟨v :: vs, by simp [List.mapM_cons, hv, hvs, ok_bind, pure, Except.pure],
      by simp [List.mapM_cons, hconvert, hys, ok_bind, pure, Except.pure]⟩

theorem requireSubject_of_subject {o : ResolvedOperand} {s : Subject} (h : subject o = .ok (some s)) :
    requireSubject subject o = .ok s := by
  rw [requireSubject, h]
  rfl

end Render

namespace Atom

open Render

variable {convert : Conversion} {subject : SubjectOf} {t : Positive}

theorem compare_of_sense {r : Relation} {left right : ResolvedOperand}
    (h : (sense convert subject).compare r left right = some t) :
    ∃ a, Atom.compare convert subject r left right = .ok a := by
  simp only [Sense.compare, Option.bind_eq_bind, Option.orElse_eq_orElse, Option.orElse_eq_or, Option.or_eq_some_iff,
    Option.bind_eq_some_iff] at h
  rcases h with ⟨s, hs, x, hx, -⟩ | ⟨-, s, hs, x, hx, -⟩
  · obtain ⟨v, none_found, hv, hconvert⟩ := value_of_sense hx
    simp only [Atom.compare, orient, subject_of_sense hs, none_found, ok_bind, hv, hconvert]
    exact ⟨_, rfl⟩
  · obtain ⟨v, none_found, hv, hconvert⟩ := value_of_sense hx
    simp only [Atom.compare, orient, subject_of_sense hs, none_found, ok_bind, hv, hconvert]
    exact ⟨_, rfl⟩

theorem between_of_sense {operand lower upper : ResolvedOperand} {negated : Bool}
    (h : (sense convert subject).between operand lower upper = some t) :
    ∃ a, Atom.between convert subject operand lower upper negated = .ok a := by
  simp only [Sense.between, Option.bind_eq_bind, Option.bind_eq_some_iff] at h
  obtain ⟨s, hs, x, hx, y, hy, -⟩ := h
  obtain ⟨v, -, hv, hvx⟩ := value_of_sense hx
  obtain ⟨w, -, hw, hwy⟩ := value_of_sense hy
  simp only [Atom.between, requireSubject_of_subject (subject_of_sense hs), ok_bind, hv, hw, hvx, hwy]
  exact ⟨_, rfl⟩

theorem among_of_sense {operand : ResolvedOperand} {values : List ResolvedOperand} {negated : Bool}
    (h : (sense convert subject).among operand values = some t) :
    ∃ a, Atom.among convert subject operand values negated = .ok a := by
  simp only [Sense.among, Option.bind_eq_bind, Option.bind_eq_some_iff] at h
  obtain ⟨s, hs, xs, hxs, -⟩ := h
  obtain ⟨vs, hvs, hconvert⟩ := values_of_sense hxs operand
  simp only [Atom.among, requireSubject_of_subject (subject_of_sense hs), ok_bind, hvs, hconvert]
  exact ⟨_, rfl⟩

theorem like_of_sense {operand pattern : ResolvedOperand} {escape : Option Char} {negated : Bool}
    (h : (sense convert subject).like operand pattern escape = some t) :
    ∃ a, Atom.like subject operand pattern escape negated = .ok a := by
  simp only [Sense.like, Option.bind_eq_bind, Option.bind_eq_some_iff] at h
  obtain ⟨s, hs, v, hv, -⟩ := h
  simp only [Atom.like, requireSubject_of_subject (subject_of_sense hs), ok_bind,
    comparand_of_value? (comparand_of_sense hv).2]
  exact ⟨_, rfl⟩

theorem isNull_of_sense {operand : ResolvedOperand} {negated : Bool}
    (h : (sense convert subject).isNull operand = some t) : ∃ a, Atom.isNull subject operand negated = .ok a := by
  simp only [Sense.isNull, Option.bind_eq_bind, Option.bind_eq_some_iff] at h
  obtain ⟨s, hs, -⟩ := h
  simp only [Atom.isNull, requireSubject_of_subject (subject_of_sense hs), ok_bind]
  exact ⟨_, rfl⟩

end Atom

namespace Render

variable {convert : Conversion} {subject : SubjectOf} {entity : String}

/-- an atom and a test that are there together, with the same in them, leave the same record -/
theorem atom_toOption {x : Except QueryError Atom} {t : Option Positive} {negated : Bool}
    (made : ∀ a, x = .ok a → t = some a.positive ∧ a.negated = negated) (found : ∀ p, t = some p → ∃ a, x = .ok a) :
    (x >>= fun a => .ok (Trace.ofPositive entity a.negated a.positive)).toOption =
      t.map (.ofPositive entity negated) := by
  cases x with
  | ok a =>
    obtain ⟨rfl, rfl⟩ := made a rfl
    rfl
  | error e =>
    cases t with
    | none => rfl
    | some p =>
      obtain ⟨a, ha⟩ := found p rfl
      cases ha

mutual

/-- the record of a resolved condition is that of what its operands stand for -/
theorem record_sense (passes : PassesValues subject) : ∀ w : Condition ResolvedOperand,
    (record convert subject entity w).toOption = w.record (sense convert subject) entity
  | .and cs => by
    rw [record, Condition.record, ← records_sense passes cs]
    cases records convert subject entity cs <;> rfl
  | .or cs => by
    rw [record, Condition.record, ← records_sense passes cs]
    cases records convert subject entity cs <;> rfl
  | .not w => by
    rw [record, Condition.record, ← record_sense passes w]
    cases record convert subject entity w <;> rfl
  | .compare .. => atom_toOption (fun _ h => Atom.compare_sense passes h) fun _ h => Atom.compare_of_sense h
  | .between .. => atom_toOption (fun _ h => Atom.between_sense passes h) fun _ h => Atom.between_of_sense h
  | .among .. => atom_toOption (fun _ h => Atom.among_sense passes h) fun _ h => Atom.among_of_sense h
  | .like .. => atom_toOption (fun _ h => Atom.like_sense passes h) fun _ h => Atom.like_of_sense h
  | .isNull .. => atom_toOption (fun _ h => Atom.isNull_sense h) fun _ h => Atom.isNull_of_sense h

theorem records_sense (passes : PassesValues subject) : ∀ ws : List (Condition ResolvedOperand),
    (records convert subject entity ws).toOption = Condition.recordAll (sense convert subject) entity ws
  | [] => rfl
  | w :: rest => by
    rw [records, Condition.recordAll, ← record_sense passes w, ← records_sense passes rest]
    cases record convert subject entity w with
    | error e => rfl
    | ok t => cases records convert subject entity rest <;> rfl

end

/-- **The query of a resolved condition is the record of the condition as it is written.** -/
theorem query_traverse {α : Type} (c : Catalog) (entity : String) (passes : PassesValues subject)
    {f : α → Except QueryError ResolvedOperand} {m : Sense α}
    (agree : Condition.Agree f m (sense (Site.convert ⟨c, entity, Trace.factory⟩) subject)) {w : Condition α}
    {d : Condition ResolvedOperand} (h : w.traverse f = .ok d) :
    (query ⟨c, entity, Trace.factory⟩ subject (some d)).toOption = w.record m entity := by
  rw [query_record, record_sense passes, Condition.traverse_record agree entity w h]

end Render

/-! ## The records of a whole query -/

/-- the record of a condition that may be left out -/
def Condition.recordIfGiven {α : Type} (m : Sense α) (entity : String) : Option (Condition α) → Option Trace
  | none => some (.matchAll entity)
  | some c => c.record m entity

/-- The queries in a result are the records of the conditions as they are written, and there is one of HAVING if there
is such a condition. -/
structure QueryResult.Records (c : Catalog) (parameters : Parameters) (q : Statement) (r : QueryResult Trace) :
    Prop where
  query : Condition.recordIfGiven (q.sense parameters (Site.convert ⟨c, r.entity, Trace.factory⟩)) r.entity q.filter =
    some r.query
  having : Option.Rel
    (fun w t => w.record (q.sense parameters (Site.convert ⟨c, r.entity, Trace.factory⟩)) r.entity = some t)
    q.having r.having

section

variable {c : Catalog} {parameters : Parameters} {q : Statement} {s : ResolvedStatement}

/-- the query of a resolved clause is the record of the clause as it is written -/
theorem query_written (h : q.Resolves c parameters s) {clause : Clause} {w : Option (Condition Operand)}
    {d : Option (Condition ResolvedOperand)} (hd : resolveOptional c parameters s.scope clause w = .ok d) :
    (Render.query ⟨c, s.target.entity, Trace.factory⟩ (clause.subject s.aliases) d).toOption =
      Condition.recordIfGiven (q.sense parameters (Site.convert ⟨c, s.target.entity, Trace.factory⟩))
        s.target.entity w := by
  cases w with
  | none =>
    cases hd
    rfl
  | some w =>
    obtain ⟨e, he, hd⟩ := bind_eq_ok.1 hd
    cases hd
    exact Render.query_traverse c s.target.entity (clause.subject_passesValues s.aliases)
      (resolveOperand_agree h _ clause) he

theorem having_written (h : q.Resolves c parameters s) {w : Option (Condition Operand)}
    {d : Option (Condition ResolvedOperand)} (hd : resolveOptional c parameters s.scope .having w = .ok d)
    {r : Option Trace} (hr : Option.Rel (fun d t => Render.query ⟨c, s.target.entity, Trace.factory⟩
      (Clause.having.subject s.aliases) (some d) = .ok t) d r) :
    Option.Rel (fun w t => w.record (q.sense parameters (Site.convert ⟨c, s.target.entity, Trace.factory⟩))
      s.target.entity = some t) w r := by
  have written := query_written h hd
  cases w with
  | none =>
    cases hd
    cases hr
    exact .none
  | some w =>
    obtain ⟨e, he, hd⟩ := bind_eq_ok.1 hd
    cases hd
    cases hr with
    | some ht =>
      rw [ht] at written
      exact .some written.symm

/-- **The queries are the records of what is written.** -/
theorem render_resolve_records (resolved : q.resolve c parameters = .ok s) {r : QueryResult Trace}
    (rendered : s.render c Trace.factory = .ok r) : r.Records c parameters q := by
  have resolves := Statement.resolve_ok resolved
  have renders := ResolvedStatement.render_ok rendered
  constructor <;> rw [renders.entity]
  · rw [← query_written resolves resolves.filter, renders.query]
    rfl
  · exact having_written resolves resolves.having renders.having

end

end EntitySearch
