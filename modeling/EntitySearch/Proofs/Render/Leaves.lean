/-
The tests of a condition and the leaves of its record.

However AND, OR and NOT are nested, a record has one leaf for each test of its condition (`record_leaves`). In a test
one operand is the subject of the leaf (`record_subjects`), and what the subject is compared with are its values, pair
by pair (`record_values`). And whatever joins the tests, the first of them that is at fault decides how a computation that
takes the parts of a condition one after the other fails (`Sequential.tests`), so also how the record does
(`record_fails`).
-/
import EntitySearch.Proofs.Render.Written
import EntitySearch.Proofs.Resolve.Compared

namespace EntitySearch

/-- the values that a property is tested for; a pattern is no value -/
def Test.values : Test → List Value
  | .compare _ _ value => [value]
  | .range _ lower upper => [lower, upper]
  | .among _ values => values
  | .like .. => []
  | .isNull _ => []

namespace Trace

/-! ## Leaves -/

mutual

/-- the leaves of a record -/
def leaves : Trace → List Positive
  | .matchAll _ => []
  | .leaf _ f t => [(f, t)]
  | .and must mustNot => leavesOf must ++ leavesOf mustNot
  | .or parts => leavesOf parts
  | .not part => leaves part

def leavesOf : List Trace → List Positive
  | [] => []
  | t :: rest => leaves t ++ leavesOf rest

end

/-- the values in the leaves of a record, each with the property, or the aggregate of one, that is tested for it -/
def values (t : Trace) : List (Positive × Value) := t.leaves.flatMap fun l => l.2.values.map (l, ·)

@[simp] theorem leaves_ofPositive (entity : String) (negated : Bool) (l : Positive) :
    (ofPositive entity negated l).leaves = [l] := by
  cases negated <;> rfl

/-- a part that is put before others brings its leaves, on whichever side it is put -/
theorem leaves_before (part : Trace) (parts : List Trace × List Trace) :
    (leavesOf (part.before parts).1 ++ leavesOf (part.before parts).2).Perm
      (part.leaves ++ (leavesOf parts.1 ++ leavesOf parts.2)) := by
  cases part with
  | not inner => exact List.perm_append_comm_assoc ..
  | _ =>
    simp only [before, leavesOf, List.append_assoc]
    exact .refl _

theorem leaves_conj (parts : List Trace) : (conj parts).leaves.Perm (leavesOf parts) := by
  induction parts with
  | nil => exact .refl _
  | cons part rest ih => exact (leaves_before part _).trans (ih.append_left _)

end Trace

/-! ## Tests -/

namespace Condition

variable {α β : Type}

mutual

/-- the tests of a condition, without what joins them, in the order of the text -/
def tests : Condition α → List (Condition α)
  | .and cs => testsOf cs
  | .or cs => testsOf cs
  | .not c => tests c
  | .compare r left right => [.compare r left right]
  | .between operand lower upper negated => [.between operand lower upper negated]
  | .among operand values negated => [.among operand values negated]
  | .like operand pattern escape negated => [.like operand pattern escape negated]
  | .isNull operand negated => [.isNull operand negated]

def testsOf : List (Condition α) → List (Condition α)
  | [] => []
  | c :: rest => tests c ++ testsOf rest

end

theorem traverseAll_eq_mapM {ε : Type} (f : α → Except ε β) (cs : List (Condition α)) :
    traverseAll f cs = cs.mapM (traverse f) := by
  induction cs with
  | nil => rfl
  | cons c rest ih =>
    rw [traverseAll, ih, List.mapM_cons]
    rfl

mutual

/-- a resolved condition has the tests of the written one, resolved -/
theorem traverse_tests {ε : Type} {f : α → Except ε β} : ∀ (c : Condition α) {d : Condition β},
    traverse f c = .ok d → c.tests.mapM (traverse f) = .ok d.tests
  | .and cs, d, h => by
    obtain ⟨ds, hds, h⟩ := bind_eq_ok.1 h
    cases h
    exact traverseAll_tests cs hds
  | .or cs, d, h => by
    obtain ⟨ds, hds, h⟩ := bind_eq_ok.1 h
    cases h
    exact traverseAll_tests cs hds
  | .not c, d, h => by
    obtain ⟨d', hd, h⟩ := bind_eq_ok.1 h
    cases h
    show c.tests.mapM (traverse f) = .ok d'.tests
    exact traverse_tests c hd
  | .compare .., d, h => by
    simp only [traverse, bind_eq_ok, Except.ok.injEq] at h
    obtain ⟨l, hl, r', hr, rfl⟩ := h
    exact mapM_eq_ok.2 (.cons (by simp only [traverse, hl, hr, ok_bind]) .nil)
  | .between .., d, h => by
    simp only [traverse, bind_eq_ok, Except.ok.injEq] at h
    obtain ⟨o, ho, l, hl, u, hu, rfl⟩ := h
    exact mapM_eq_ok.2 (.cons (by simp only [traverse, ho, hl, hu, ok_bind]) .nil)
  | .among .., d, h => by
    simp only [traverse, bind_eq_ok, Except.ok.injEq] at h
    obtain ⟨o, ho, vs, hvs, rfl⟩ := h
    exact mapM_eq_ok.2 (.cons (by simp only [traverse, ho, hvs, ok_bind]) .nil)
  | .like .., d, h => by
    simp only [traverse, bind_eq_ok, Except.ok.injEq] at h
    obtain ⟨o, ho, p, hp, rfl⟩ := h
    exact mapM_eq_ok.2 (.cons (by simp only [traverse, ho, hp, ok_bind]) .nil)
  | .isNull .., d, h => by
    simp only [traverse, bind_eq_ok, Except.ok.injEq] at h
    obtain ⟨o, ho, rfl⟩ := h
    exact mapM_eq_ok.2 (.cons (by simp only [traverse, ho, ok_bind]) .nil)

theorem traverseAll_tests {ε : Type} {f : α → Except ε β} : ∀ (cs : List (Condition α)) {ds : List (Condition β)},
    traverseAll f cs = .ok ds → (testsOf cs).mapM (traverse f) = .ok (testsOf ds)
  | [], ds, h => by
    cases h
    rfl
  | c :: rest, ds, h => by
    simp only [traverseAll, bind_eq_ok, Except.ok.injEq] at h
    obtain ⟨d, hd, es, hes, rfl⟩ := h
    rw [testsOf, List.mapM_append, traverse_tests c hd, traverseAll_tests rest hes]
    rfl

end

mutual

theorem operands_tests : ∀ c : Condition α, c.operands = c.tests.flatMap operands
  | .and cs => operandsOf_testsOf cs
  | .or cs => operandsOf_testsOf cs
  | .not c => operands_tests c
  | .compare .. => by simp [tests]
  | .between .. => by simp [tests]
  | .among .. => by simp [tests]
  | .like .. => by simp [tests]
  | .isNull .. => by simp [tests]

theorem operandsOf_testsOf : ∀ cs : List (Condition α), operandsOf cs = (testsOf cs).flatMap operands
  | [] => rfl
  | c :: rest => by rw [operandsOf, testsOf, List.flatMap_append, operands_tests c, operandsOf_testsOf rest]

end

mutual

theorem compared_tests : ∀ c : Condition α, c.compared = c.tests.flatMap compared
  | .and cs => comparedIn_testsOf cs
  | .or cs => comparedIn_testsOf cs
  | .not c => compared_tests c
  | .compare .. => by simp [tests]
  | .between .. => by simp [tests]
  | .among .. => by simp [tests]
  | .like .. => by simp [tests]
  | .isNull .. => by simp [tests]

theorem comparedIn_testsOf : ∀ cs : List (Condition α), comparedIn cs = (testsOf cs).flatMap compared
  | [] => rfl
  | c :: rest => by rw [comparedIn, testsOf, List.flatMap_append, compared_tests c, comparedIn_testsOf rest]

end

end Condition

namespace Sense

variable {α : Type} (m : Sense α)

/-- the positive test that a single test is -/
def positive : Condition α → Option Positive
  | .compare r left right => m.compare r left right
  | .between operand lower upper _ => m.between operand lower upper
  | .among operand values _ => m.among operand values
  | .like operand pattern escape _ => m.like operand pattern escape
  | .isNull operand _ => m.isNull operand
  | .and _ | .or _ | .not _ => none

/-- the operand stands for a property, or for an aggregate of one -/
def isSubject (o : α) : Bool := (m.subject o).isSome

/-- the leaf is about what the operand stands for -/
def About (o : α) (l : Positive) : Prop := ∃ s, m.subject o = some s ∧ l.1 = s.aggregation ∧ l.2.property = s.property

/-- the value is what the second operand stands for beside the first -/
def Beside (pair : α × α) (v : Positive × Value) : Prop :=
  ∃ s, m.subject pair.1 = some s ∧ v.1.1 = s.aggregation ∧ v.1.2.property = s.property ∧ m.value s pair.2 = some v.2

variable {m} {l : Positive}

theorem isSubject_of_subject {o : α} {s : Subject} (h : m.subject o = some s) : m.isSubject o = true := by
  rw [isSubject, h]
  rfl

/-- a value is no subject -/
theorem not_isSubject_of_comparand {o : α} {v : Comparand} (h : m.comparand o = some v) : m.isSubject o = false := by
  unfold isSubject subject
  unfold comparand at h
  split at h
  · rename_i side
    rw [side]
    rfl
  · cases h

theorem not_isSubject_of_value {o : α} {s : Subject} {x : Value} (h : m.value s o = some x) :
    m.isSubject o = false := by
  obtain ⟨v, hv, -⟩ := Option.bind_eq_some_iff.1 h
  exact not_isSubject_of_comparand hv

theorem values_of_mapM {s : Subject} {vs : List α} {xs : List Value} (h : vs.mapM (m.value s) = some xs) :
    List.Forall₂ (fun v x => m.value s v = some x) vs xs := by
  induction vs generalizing xs with
  | nil =>
    cases h
    exact .nil
  | cons v rest ih =>
    simp only [List.mapM_cons, Option.bind_eq_bind, Option.bind_eq_some_iff, Option.pure_def, Option.some.injEq] at h
    obtain ⟨x, hx, ys, hys, rfl⟩ := h
    exact .cons hx (ih hys)

/-- a comparison has its property on one side and its value on the other -/
theorem compare_eq_some {r : Relation} {left right : α} (h : m.compare r left right = some l) :
    ∃ s x r', l = (s.aggregation, .compare s.property r' x) ∧
      (m.subject left = some s ∧ m.value s right = some x ∨ m.subject right = some s ∧ m.value s left = some x) := by
  simp only [compare, Option.bind_eq_bind, Option.orElse_eq_orElse, Option.orElse_eq_or, Option.or_eq_some_iff,
    Option.bind_eq_some_iff, Option.some.injEq] at h
  rcases h with ⟨s, hs, x, hx, rfl⟩ | ⟨-, s, hs, x, hx, rfl⟩
  · exact ⟨s, x, r, rfl, .inl ⟨hs, hx⟩⟩
  · exact ⟨s, x, r.converse, rfl, .inr ⟨hs, hx⟩⟩

theorem between_eq_some {operand lower upper : α} (h : m.between operand lower upper = some l) :
    ∃ s x y, l = (s.aggregation, .range s.property x y) ∧ m.subject operand = some s ∧
      m.value s lower = some x ∧ m.value s upper = some y := by
  simp only [between, Option.bind_eq_bind, Option.bind_eq_some_iff, Option.some.injEq] at h
  obtain ⟨s, hs, x, hx, y, hy, rfl⟩ := h
  exact ⟨s, x, y, rfl, hs, hx, hy⟩

theorem among_eq_some {operand : α} {values : List α} (h : m.among operand values = some l) :
    ∃ s xs, l = (s.aggregation, .among s.property xs) ∧ m.subject operand = some s ∧
      List.Forall₂ (fun v x => m.value s v = some x) values xs := by
  simp only [among, Option.bind_eq_bind, Option.bind_eq_some_iff, Option.some.injEq] at h
  obtain ⟨s, hs, xs, hxs, rfl⟩ := h
  exact ⟨s, xs, rfl, hs, values_of_mapM hxs⟩

theorem like_eq_some {operand pattern : α} {escape : Option Char} (h : m.like operand pattern escape = some l) :
    ∃ s v, l = (s.aggregation, .like s.property v.pattern escape) ∧ m.subject operand = some s ∧
      m.comparand pattern = some v := by
  simp only [like, Option.bind_eq_bind, Option.bind_eq_some_iff, Option.some.injEq] at h
  obtain ⟨s, hs, v, hv, rfl⟩ := h
  exact ⟨s, v, rfl, hs, hv⟩

theorem isNull_eq_some {operand : α} (h : m.isNull operand = some l) :
    ∃ s, l = (s.aggregation, .isNull s.property) ∧ m.subject operand = some s := by
  simp only [isNull, Option.bind_eq_bind, Option.bind_eq_some_iff, Option.some.injEq] at h
  obtain ⟨s, hs, rfl⟩ := h
  exact ⟨s, rfl, hs⟩

/-- **A test has one subject**, which its leaf is about. -/
theorem positive_subject : ∀ {test : Condition α}, m.positive test = some l →
    List.Forall₂ m.About (test.operands.filter m.isSubject) [l]
  | .and _, h => nomatch h
  | .or _, h => nomatch h
  | .not _, h => nomatch h
  | .compare .., h => by
    obtain ⟨s, x, r', rfl, ⟨hs, hx⟩ | ⟨hs, hx⟩⟩ := compare_eq_some h
    all_goals
      simp only [Condition.operands, List.filter_cons, isSubject_of_subject hs, not_isSubject_of_value hx]
      exact .cons ⟨s, hs, rfl, rfl⟩ .nil
  | .between .., h => by
    obtain ⟨s, x, y, rfl, hs, hx, hy⟩ := between_eq_some h
    simp only [Condition.operands, List.filter_cons, isSubject_of_subject hs, not_isSubject_of_value hx,
      not_isSubject_of_value hy]
    exact .cons ⟨s, hs, rfl, rfl⟩ .nil
  | .among operand values _, h => by
    obtain ⟨s, xs, rfl, hs, hxs⟩ := among_eq_some h
    have no_values : values.filter m.isSubject = [] := by
      rw [List.filter_eq_nil_iff]
      intro v hv
      obtain ⟨x, -, hx⟩ := forall₂_right hxs.flip v hv
      simp [not_isSubject_of_value hx]
    rw [Condition.operands, List.filter_cons, if_pos (isSubject_of_subject hs), no_values]
    exact .cons ⟨s, hs, rfl, rfl⟩ .nil
  | .like .., h => by
    obtain ⟨s, v, rfl, hs, hv⟩ := like_eq_some h
    simp only [Condition.operands, List.filter_cons, isSubject_of_subject hs, not_isSubject_of_comparand hv]
    exact .cons ⟨s, hs, rfl, rfl⟩ .nil
  | .isNull .., h => by
    obtain ⟨s, rfl, hs⟩ := isNull_eq_some h
    simp only [Condition.operands, List.filter_cons, isSubject_of_subject hs]
    exact .cons ⟨s, hs, rfl, rfl⟩ .nil

/-- **The values in a leaf** are those that the subject of its test is compared with, in their order. -/
theorem positive_values : ∀ {test : Condition α}, m.positive test = some l →
    List.Forall₂ m.Beside (test.compared.filter fun pair => m.isSubject pair.1) (l.2.values.map (l, ·))
  | .and _, h => nomatch h
  | .or _, h => nomatch h
  | .not _, h => nomatch h
  | .compare .., h => by
    obtain ⟨s, x, r', rfl, ⟨hs, hx⟩ | ⟨hs, hx⟩⟩ := compare_eq_some h
    all_goals
      simp only [Condition.compared, List.filter_cons, isSubject_of_subject hs, not_isSubject_of_value hx]
      exact .cons ⟨s, hs, rfl, rfl, hx⟩ .nil
  | .between .., h => by
    obtain ⟨s, x, y, rfl, hs, hx, hy⟩ := between_eq_some h
    simp only [Condition.compared, List.filter_cons, isSubject_of_subject hs]
    exact .cons ⟨s, hs, rfl, rfl, hx⟩ (.cons ⟨s, hs, rfl, rfl, hy⟩ .nil)
  | .among operand values _, h => by
    obtain ⟨s, xs, rfl, hs, hxs⟩ := among_eq_some h
    have all : (values.map fun v => (operand, v)).filter (fun pair => m.isSubject pair.1) =
        values.map fun v => (operand, v) := by
      simp [List.filter_eq_self, isSubject_of_subject hs]
    rw [Condition.compared, all, List.forall₂_map_left_iff, Test.values, List.forall₂_map_right_iff]
    exact hxs.imp fun v x hx => ⟨s, hs, rfl, rfl, hx⟩
  | .like .., h => by
    obtain ⟨s, v, rfl, -, -⟩ := like_eq_some h
    exact .nil
  | .isNull .., h => by
    obtain ⟨s, rfl, -⟩ := isNull_eq_some h
    exact .nil

end Sense

/-! ## The leaves of a record -/

namespace Condition

variable {α : Type} {m : Sense α} {entity : String}

/-- the leaves are those of the tests, one by one -/
def LeavesOf (m : Sense α) (tests : List (Condition α)) (leaves : List Positive) : Prop :=
  ∃ ls, ls.Perm leaves ∧ List.Forall₂ (fun test l => m.positive test = some l) tests ls

theorem LeavesOf.single {test : Condition α} {negated : Bool} {t : Trace} (h : (m.positive test).map
    (Trace.ofPositive entity negated) = some t) : LeavesOf m [test] t.leaves := by
  obtain ⟨l, hl, rfl⟩ := Option.map_eq_some_iff.1 h
  exact ⟨[l], by rw [Trace.leaves_ofPositive], .cons hl .nil⟩

theorem LeavesOf.append {tests tests' : List (Condition α)} {ls ls' : List Positive} (h : LeavesOf m tests ls)
    (h' : LeavesOf m tests' ls') : LeavesOf m (tests ++ tests') (ls ++ ls') :=
  let ⟨_, perm, each⟩ := h
  let ⟨_, perm', each'⟩ := h'
  ⟨_, perm.append perm', List.rel_append each each'⟩

mutual

/-- **A record has one leaf for each test**, whatever joins the tests. -/
theorem record_leaves : ∀ (c : Condition α) {t : Trace}, c.record m entity = some t → LeavesOf m c.tests t.leaves
  | .and cs, t, h => by
    obtain ⟨ts, hts, rfl⟩ := Option.map_eq_some_iff.1 h
    obtain ⟨ls, perm, each⟩ := recordAll_leaves cs hts
    exact ⟨ls, perm.trans (Trace.leaves_conj ts).symm, each⟩
  | .or cs, t, h => by
    obtain ⟨ts, hts, rfl⟩ := Option.map_eq_some_iff.1 h
    exact recordAll_leaves cs hts
  | .not c, t, h => by
    obtain ⟨t', ht, rfl⟩ := Option.map_eq_some_iff.1 h
    show LeavesOf m c.tests t'.leaves
    exact record_leaves c ht
  | .compare .., _, h => .single h
  | .between .., _, h => .single h
  | .among .., _, h => .single h
  | .like .., _, h => .single h
  | .isNull .., _, h => .single h

theorem recordAll_leaves : ∀ (cs : List (Condition α)) {ts : List Trace}, recordAll m entity cs = some ts →
    LeavesOf m (testsOf cs) (Trace.leavesOf ts)
  | [], ts, h => by
    cases h
    exact ⟨[], .refl _, .nil⟩
  | c :: rest, ts, h => by
    simp only [recordAll, Option.bind_eq_bind, Option.bind_eq_some_iff, Option.some.injEq] at h
    obtain ⟨t, ht, us, hus, rfl⟩ := h
    exact (record_leaves c ht).append (recordAll_leaves rest hus)

end

/-- **Each leaf is about one operand**, and each operand that stands for a property has its leaf. -/
theorem record_subjects {c : Condition α} {t : Trace} (h : c.record m entity = some t) :
    ∃ ls, ls.Perm t.leaves ∧ List.Forall₂ m.About (c.operands.filter m.isSubject) ls := by
  obtain ⟨ls, perm, each⟩ := record_leaves c h
  refine ⟨ls, perm, ?_⟩
  rw [operands_tests, List.filter_flatMap, ← List.flatMap_singleton' ls]
  exact List.rel_flatMap each fun _ _ hl => Sense.positive_subject hl

/-- **Each value in the leaves stands for one that a property is compared with**, and each of these has its value. -/
theorem record_values {c : Condition α} {t : Trace} (h : c.record m entity = some t) :
    ∃ vs, vs.Perm t.values ∧ List.Forall₂ m.Beside (c.compared.filter fun pair => m.isSubject pair.1) vs := by
  obtain ⟨ls, perm, each⟩ := record_leaves c h
  refine ⟨ls.flatMap fun l => l.2.values.map (l, ·), perm.flatMap_right _, ?_⟩
  rw [compared_tests, List.filter_flatMap]
  exact List.rel_flatMap each fun _ _ hl => Sense.positive_values hl

end Condition

/-! ## The first fault -/

namespace Render

variable {convert : Conversion} {subject : SubjectOf} {entity : String}

/-- both fail with one fault, or neither fails -/
abbrev SameFault {α β : Type} : Except QueryError α → Except QueryError β → Prop := SameOutcome fun _ _ => True

namespace SameFault

variable {α β γ : Type} {x : Except QueryError α} {y : Except QueryError β} {z : Except QueryError γ}

theorem refl (x : Except QueryError α) : SameFault x x := by
  cases x with
  | ok _ => exact .ok trivial
  | error e => exact .error e

theorem trans (h : SameFault x y) (h' : SameFault y z) : SameFault x z := by
  cases h with
  | ok _ =>
    cases h'
    exact .ok trivial
  | error e =>
    cases h'
    exact .error e

theorem made (h : SameFault x y) (f : α → γ) : SameFault (x >>= fun a => .ok (f a)) y := by
  cases h with
  | ok _ => exact .ok trivial
  | error e => exact .error e

theorem fails {e : QueryError} (h : SameFault x y) (hy : y = .error e) : x = .error e := by
  subst hy
  cases h
  rfl

end SameFault

/-- a computation along conditions, and the one along lists of them, take the parts one after the other -/
structure Sequential {α β γ : Type} (f : Condition α → Except QueryError β)
    (fs : List (Condition α) → Except QueryError γ) : Prop where
  and : ∀ cs, SameFault (f (.and cs)) (fs cs)
  or : ∀ cs, SameFault (f (.or cs)) (fs cs)
  not : ∀ c, SameFault (f (.not c)) (f c)
  nil : SameFault (fs []) (.ok ())
  cons : ∀ c rest, SameFault (fs (c :: rest)) (do let _ ← f c; let _ ← fs rest; .ok ())

namespace Sequential

variable {α β γ : Type} {f : Condition α → Except QueryError β} {fs : List (Condition α) → Except QueryError γ}

theorem single (f : Condition α → Except QueryError β) (test : Condition α) : SameFault (f test) ([test].mapM f) := by
  rw [List.mapM_cons]
  cases f test with
  | error e => exact .error e
  | ok t => exact .ok trivial

mutual

/-- **The first test at fault decides** how such a computation fails, whatever joins the tests. -/
theorem tests (h : Sequential f fs) : ∀ c : Condition α, SameFault (f c) (c.tests.mapM f)
  | .and cs => (h.and cs).trans (h.testsOf cs)
  | .or cs => (h.or cs).trans (h.testsOf cs)
  | .not c => (h.not c).trans (h.tests c)
  | .compare .. => single f _
  | .between .. => single f _
  | .among .. => single f _
  | .like .. => single f _
  | .isNull .. => single f _

theorem testsOf (h : Sequential f fs) : ∀ cs : List (Condition α), SameFault (fs cs) ((Condition.testsOf cs).mapM f)
  | [] => h.nil.trans (.ok trivial)
  | c :: rest => by
    rw [Condition.testsOf, List.mapM_append]
    exact (h.cons c rest).trans ((h.tests c).bind fun _ _ _ => (h.testsOf rest).bind fun _ _ _ => .ok trivial)

end

end Sequential

theorem record_sequential : Sequential (record convert subject entity) (records convert subject entity) where
  and _ := (SameFault.refl _).made _
  or _ := (SameFault.refl _).made _
  not _ := (SameFault.refl _).made _
  nil := .ok trivial
  cons _ _ := .bind_same _ fun _ => .bind_same _ fun _ => .ok trivial

theorem records_eq_mapM (cs : List (Condition ResolvedOperand)) :
    records convert subject entity cs = cs.mapM (record convert subject entity) := by
  induction cs with
  | nil => rfl
  | cons c rest ih =>
    rw [records, ih, List.mapM_cons]
    rfl

/-- the first test at fault decides how the record of a condition fails -/
theorem record_tests (c : Condition ResolvedOperand) :
    SameFault (record convert subject entity c) (c.tests.mapM (record convert subject entity)) :=
  record_sequential.tests c

/-- A condition with a test at fault fails so, or as the tests before do. -/
theorem record_fails {c test : Condition ResolvedOperand} {before after : List (Condition ResolvedOperand)}
    (split : c.tests = before ++ test :: after) {e : QueryError}
    (fault : record convert subject entity test = .error e) :
    ∃ e', record convert subject entity c = .error e' ∧
      (e' = e ∨ record convert subject entity (.and before) = .error e') := by
  have in_order : SameFault (record convert subject entity c) (c.tests.mapM (record convert subject entity)) :=
    record_tests c
  rw [split, List.mapM_append] at in_order
  cases hbefore : before.mapM (record convert subject entity) with
  | error e' =>
    rw [hbefore] at in_order
    refine ⟨e', in_order.fails rfl, .inr ?_⟩
    rw [record, records_eq_mapM, hbefore]
    rfl
  | ok ts =>
    rw [hbefore, ok_bind, List.mapM_cons, fault] at in_order
    exact ⟨e, in_order.fails rfl, .inl rfl⟩

end Render

end EntitySearch
