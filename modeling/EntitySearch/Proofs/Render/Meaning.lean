/-
What conditions mean, before and after their names are resolved.

A `Sense` says what an operand stands for, a property or a value, and how values are converted to what they are compared
with. It makes of every atomic condition one positive test; a comparison with the property on the right is read as the
converse relation with the property on the left (`converse_compares`). `Condition.Holds` is the Boolean meaning.
- `mirrored_eq_converse`: the mirror image that a clause is rendered with is the converse, as both say the same of any
  two members of an order;
- `traverse_holds`: a condition means the same when its operands are resolved to operands that stand for the same;
- `tree_holds`: the tree that a resolved condition becomes means what the condition does.
-/
import EntitySearch.Proofs.Predicate.Meaning
import EntitySearch.Proofs.Render.Tree
import EntitySearch.Resolve.Statement
import Mathlib.Order.Lattice

namespace EntitySearch

/-! ## Relations read from the other side -/

/-- the relation between two members of an ordered type -/
def Relation.compares {α : Type} [LinearOrder α] (a b : α) : Relation → Prop
  | .equal => a = b
  | .notEqual => a ≠ b
  | .less => a < b
  | .lessOrEqual => a ≤ b
  | .greater => b < a
  | .greaterOrEqual => b ≤ a

/-- the relation in which the second of two stands to the first -/
def Relation.converse : Relation → Relation
  | .equal => .equal
  | .notEqual => .notEqual
  | .less => .greater
  | .lessOrEqual => .greaterOrEqual
  | .greater => .less
  | .greaterOrEqual => .lessOrEqual

section Converse

variable {α : Type} [LinearOrder α] (a b : α) (r : Relation)

/-- The converse says of two what the relation says of them in the other order. -/
theorem converse_compares : r.converse.compares a b ↔ r.compares b a := by
  cases r with
  | equal => exact eq_comm
  | notEqual => exact ne_comm
  | _ => exact Iff.rfl

/-- So does the mirror image that a clause is rendered with. -/
theorem mirrored_compares : r.mirrored.compares a b ↔ r.compares b a := by
  cases r with
  | equal => exact eq_comm
  | notEqual => exact ne_comm
  | _ => exact Iff.rfl

end Converse

/-- Relations that say the same of all numbers are one: what they say of 0 and 1, of 0 and 0 and of 1 and 0 tells the
six of them apart. -/
theorem Relation.eq_of_compares {r r' : Relation} (same : ∀ a b : Nat, r.compares a b ↔ r'.compares a b) : r = r' := by
  have below := same 0 1
  have level := same 0 0
  have above := same 1 0
  cases r <;> cases r' <;> simp [Relation.compares] at below level above ⊢

/-- The mirror image of a relation is its converse. -/
theorem mirrored_eq_converse (r : Relation) : r.mirrored = r.converse := by
  refine Relation.eq_of_compares fun a b => ?_
  calc r.mirrored.compares a b ↔ r.compares b a := mirrored_compares a b r
    _ ↔ r.converse.compares a b := (converse_compares a b r).symm

/-! ## The meaning of a condition -/

/-- what an operand stands for -/
inductive Side where
  | subject (s : Subject)
  | value (v : Comparand)

/-- what operands stand for, and how values are converted -/
structure Sense (α : Type) where
  side : α → Option Side
  convert : Conversion

/-- a positive test, and the aggregate that it is of -/
abbrev Positive := Option Aggregation × Test

namespace Sense

variable {α : Type} (m : Sense α)

/-- the property, or the aggregate of one, that an operand stands for -/
def subject (operand : α) : Option Subject :=
  match m.side operand with
  | some (.subject s) => some s
  | _ => none

/-- the literal or parameter that an operand stands for -/
def comparand (operand : α) : Option Comparand :=
  match m.side operand with
  | some (.value v) => some v
  | _ => none

/-- the value that an operand stands for beside a subject -/
def value (s : Subject) (operand : α) : Option Value := (m.comparand operand).bind fun v => (m.convert s v).toOption

/-- `left r right`, or `right` in the converse relation to `left` if the right side is the property -/
def compare (r : Relation) (left right : α) : Option Positive :=
  (do
    let s ← m.subject left
    let x ← m.value s right
    some (s.aggregation, .compare s.property r x))
  <|> (do
    let s ← m.subject right
    let x ← m.value s left
    some (s.aggregation, .compare s.property r.converse x))

def between (operand lower upper : α) : Option Positive := do
  let s ← m.subject operand
  let lower ← m.value s lower
  let upper ← m.value s upper
  some (s.aggregation, .range s.property lower upper)

def among (operand : α) (values : List α) : Option Positive := do
  let s ← m.subject operand
  let values ← values.mapM (m.value s)
  some (s.aggregation, .among s.property values)

def like (operand pattern : α) (escape : Option Char) : Option Positive := do
  let s ← m.subject operand
  let pattern ← m.comparand pattern
  some (s.aggregation, .like s.property pattern.pattern escape)

def isNull (operand : α) : Option Positive := do
  let s ← m.subject operand
  some (s.aggregation, .isNull s.property)

end Sense

/-- a positive test is there and true -/
def Valuation.Satisfies (ν : Valuation) (t : Option Positive) : Prop := ∃ p ∈ t, ν.holds p.1 p.2

/-- a statement or its negation -/
def Signed (negated : Bool) (p : Prop) : Prop := if negated then ¬ p else p

namespace Condition

variable {α β : Type}

mutual

/-- the Boolean meaning of a condition over a valuation of the positive tests -/
def Holds (m : Sense α) (ν : Valuation) : Condition α → Prop
  | .and cs => AllHold m ν cs
  | .or cs => AnyHolds m ν cs
  | .not c => ¬ Holds m ν c
  | .compare r left right => ν.Satisfies (m.compare r left right)
  | .between operand lower upper negated => Signed negated (ν.Satisfies (m.between operand lower upper))
  | .among operand values negated => Signed negated (ν.Satisfies (m.among operand values))
  | .like operand pattern escape negated => Signed negated (ν.Satisfies (m.like operand pattern escape))
  | .isNull operand negated => Signed negated (ν.Satisfies (m.isNull operand))

def AllHold (m : Sense α) (ν : Valuation) : List (Condition α) → Prop
  | [] => True
  | c :: rest => Holds m ν c ∧ AllHold m ν rest

def AnyHolds (m : Sense α) (ν : Valuation) : List (Condition α) → Prop
  | [] => False
  | c :: rest => Holds m ν c ∨ AnyHolds m ν rest

end

/-! ## Resolved operands that stand for the same -/

/-- `n` makes of what `f` gives what `m` makes of what `f` is given -/
structure Agree {ε : Type} (f : α → Except ε β) (m : Sense α) (n : Sense β) : Prop where
  side : ∀ {a b}, f a = .ok b → n.side b = m.side a
  convert : n.convert = m.convert

namespace Agree

variable {ε : Type} {f : α → Except ε β} {m : Sense α} {n : Sense β} {a b c : α} {a' b' c' : β}

theorem subject (h : Agree f m n) (ha : f a = .ok a') : n.subject a' = m.subject a := by
  simp only [Sense.subject, h.side ha]

theorem comparand (h : Agree f m n) (ha : f a = .ok a') : n.comparand a' = m.comparand a := by
  simp only [Sense.comparand, h.side ha]

theorem value (h : Agree f m n) (s : Subject) (ha : f a = .ok a') : n.value s a' = m.value s a := by
  simp only [Sense.value, h.comparand ha, h.convert]

theorem values (h : Agree f m n) (s : Subject) {as : List α} {as' : List β}
    (has : List.Forall₂ (fun a a' => f a = .ok a') as as') : as'.mapM (n.value s) = as.mapM (m.value s) := by
  induction has with
  | nil => rfl
  | cons ha _ ih => simp only [List.mapM_cons, h.value s ha, ih]

end Agree

mutual

/-- **Resolving keeps the meaning**: operands that stand for the same make conditions that mean the same. -/
theorem traverse_holds {ε : Type} {f : α → Except ε β} {m : Sense α} {n : Sense β} (agree : Agree f m n)
    (ν : Valuation) : ∀ (c : Condition α) {c' : Condition β}, traverse f c = .ok c' → (c'.Holds n ν ↔ c.Holds m ν)
  | .and cs, c', h => by
    simp only [traverse, bind_eq_ok, Except.ok.injEq] at h
    obtain ⟨cs', hcs, rfl⟩ := h
    rw [Holds, Holds, (traverseAll_holds agree ν cs hcs).1]
  | .or cs, c', h => by
    simp only [traverse, bind_eq_ok, Except.ok.injEq] at h
    obtain ⟨cs', hcs, rfl⟩ := h
    rw [Holds, Holds, (traverseAll_holds agree ν cs hcs).2]
  | .not c, c', h => by
    simp only [traverse, bind_eq_ok, Except.ok.injEq] at h
    obtain ⟨d, hd, rfl⟩ := h
    rw [Holds, Holds, traverse_holds agree ν c hd]
  | .compare r left right, c', h => by
    simp only [traverse, bind_eq_ok, Except.ok.injEq] at h
    obtain ⟨l, hl, r', hr, rfl⟩ := h
    simp only [Holds, Sense.compare, agree.subject hl, agree.subject hr, agree.value _ hl, agree.value _ hr]
  | .between operand lower upper negated, c', h => by
    simp only [traverse, bind_eq_ok, Except.ok.injEq] at h
    obtain ⟨o, ho, l, hl, u, hu, rfl⟩ := h
    simp only [Holds, Sense.between, agree.subject ho, agree.value _ hl, agree.value _ hu]
  | .among operand values negated, c', h => by
    simp only [traverse, bind_eq_ok, Except.ok.injEq, mapM_eq_ok] at h
    obtain ⟨o, ho, vs, hvs, rfl⟩ := h
    simp only [Holds, Sense.among, agree.subject ho, agree.values _ hvs]
  | .like operand pattern escape negated, c', h => by
    simp only [traverse, bind_eq_ok, Except.ok.injEq] at h
    obtain ⟨o, ho, p, hp, rfl⟩ := h
    simp only [Holds, Sense.like, agree.subject ho, agree.comparand hp]
  | .isNull operand negated, c', h => by
    simp only [traverse, bind_eq_ok, Except.ok.injEq] at h
    obtain ⟨o, ho, rfl⟩ := h
    simp only [Holds, Sense.isNull, agree.subject ho]

theorem traverseAll_holds {ε : Type} {f : α → Except ε β} {m : Sense α} {n : Sense β} (agree : Agree f m n)
    (ν : Valuation) : ∀ (cs : List (Condition α)) {cs' : List (Condition β)}, traverseAll f cs = .ok cs' →
      (AllHold n ν cs' ↔ AllHold m ν cs) ∧ (AnyHolds n ν cs' ↔ AnyHolds m ν cs)
  | [], cs', h => by
    cases h
    exact ⟨Iff.rfl, Iff.rfl⟩
  | c :: rest, cs', h => by
    simp only [traverseAll, bind_eq_ok, Except.ok.injEq] at h
    obtain ⟨d, hd, ds, hds, rfl⟩ := h
    obtain ⟨all, any⟩ := traverseAll_holds agree ν rest hds
    simp only [AllHold, AnyHolds, traverse_holds agree ν c hd, all, any, and_self]

end

end Condition

/-! ## The tree of a condition -/

namespace ResolvedOperand

/-- the value that an operand is -/
def value? : ResolvedOperand → Option Comparand
  | .literal text => some (.literal text)
  | .parameter _ value => some (.parameter value)
  | _ => none

theorem value?_of_comparand {property operand : ResolvedOperand} {v : Comparand}
    (h : property.comparand operand = .ok v) : operand.value? = some v := by
  cases operand with
  | path p => cases h
  | aggregate a => cases h
  | _ =>
    simp only [comparand, Except.ok.injEq] at h
    exact congrArg some h

end ResolvedOperand

namespace Render

/-- a value is no subject -/
def PassesValues (subject : SubjectOf) : Prop := ∀ {o v}, o.value? = some v → subject o = .ok none

theorem propertySubject_passesValues (t : AliasTable) : PassesValues (ResolvedOperand.propertySubject t) := by
  intro o v h
  cases o with
  | path p => cases h
  | aggregate a => cases h
  | _ => rfl

theorem aggregateSubject_passesValues (t : AliasTable) : PassesValues (ResolvedOperand.aggregateSubject t) := by
  intro o v h
  cases o with
  | path p => cases h
  | aggregate a => cases h
  | _ => rfl

/-- what a resolved operand stands for in the clause whose subjects are found so -/
def side (subject : SubjectOf) (o : ResolvedOperand) : Option Side :=
  match subject o with
  | .ok (some s) => some (.subject s)
  | .ok none => o.value?.map .value
  | .error _ => none

/-- the sense of resolved operands -/
def sense (convert : Conversion) (subject : SubjectOf) : Sense ResolvedOperand := ⟨side subject, convert⟩

variable {convert : Conversion} {subject : SubjectOf}

theorem sense_subject {o : ResolvedOperand} {s : Subject} (h : subject o = .ok (some s)) :
    (sense convert subject).subject o = some s := by
  simp only [Sense.subject, sense, side, h]

theorem sense_subject_none {o : ResolvedOperand} (h : subject o = .ok none) :
    (sense convert subject).subject o = none := by
  simp only [Sense.subject, sense, side, h]
  cases o.value? <;> rfl

theorem sense_comparand (passes : PassesValues subject) {o v : ResolvedOperand} {w : Comparand}
    (h : o.comparand v = .ok w) : (sense convert subject).comparand v = some w := by
  have hw := ResolvedOperand.value?_of_comparand h
  simp only [Sense.comparand, sense, side, passes hw, hw, Option.map_some]

theorem sense_value (passes : PassesValues subject) {o v : ResolvedOperand} {w : Comparand} {s : Subject} {x : Value}
    (h : o.comparand v = .ok w) (hx : convert s w = .ok x) : (sense convert subject).value s v = some x := by
  have hs : (sense convert subject).convert s w = .ok x := hx
  simp only [Sense.value, sense_comparand passes h, Option.bind_some, hs]
  rfl

theorem sense_values (passes : PassesValues subject) {o : ResolvedOperand} {vs : List ResolvedOperand}
    {ws : List Comparand} {s : Subject} {xs : List Value} (h : List.Forall₂ (fun v w => o.comparand v = .ok w) vs ws)
    (hx : List.Forall₂ (fun w x => convert s w = .ok x) ws xs) :
    vs.mapM ((sense convert subject).value s) = some xs := by
  induction h generalizing xs with
  | nil => cases hx; rfl
  | cons hv _ ih =>
    cases hx with
    | cons hx hxs => simp [List.mapM_cons, sense_value passes hv hx, ih hxs]

theorem requireSubject_ok {o : ResolvedOperand} {s : Subject} (h : requireSubject subject o = .ok s) :
    subject o = .ok (some s) := by
  simp only [requireSubject, bind_eq_ok] at h
  obtain ⟨r, hr, h⟩ := h
  cases r with
  | none => cases h
  | some s' => cases h; exact hr

/-- A comparison is oriented by the one side that is a property. -/
theorem orient_ok {r r' : Relation} {left right : ResolvedOperand} {s : Subject} {v : Comparand}
    (h : orient subject r left right = .ok (s, r', v)) :
    (subject left = .ok (some s) ∧ left.comparand right = .ok v ∧ r' = r) ∨
      (subject left = .ok none ∧ subject right = .ok (some s) ∧ right.comparand left = .ok v ∧ r' = r.converse) := by
  simp only [orient, bind_eq_ok] at h
  obtain ⟨l, hl, m, hm, h⟩ := h
  rcases l with _ | l <;> rcases m with _ | m
  · cases h
  · simp only [bind_eq_ok, Except.ok.injEq] at h
    obtain ⟨w, hw, h⟩ := h
    cases h
    exact .inr ⟨hl, hm, hw, mirrored_eq_converse r⟩
  · simp only [bind_eq_ok, Except.ok.injEq] at h
    obtain ⟨w, hw, h⟩ := h
    cases h
    exact .inl ⟨hl, hw, rfl⟩
  · cases h

end Render

namespace Atom

open Render

variable {convert : Conversion} {subject : SubjectOf} {a : Atom}

/-- the positive test of an atom -/
def positive (a : Atom) : Positive := (a.subject.aggregation, a.test)

theorem compare_sense (passes : PassesValues subject) {r : Relation} {left right : ResolvedOperand}
    (h : Atom.compare convert subject r left right = .ok a) :
    (sense convert subject).compare r left right = some a.positive ∧ a.negated = false := by
  simp only [Atom.compare, bind_eq_ok, Except.ok.injEq] at h
  obtain ⟨⟨s, r', v⟩, horient, x, hx, rfl⟩ := h
  rcases orient_ok horient with ⟨hs, hv, rfl⟩ | ⟨hn, hs, hv, rfl⟩
  · exact ⟨by simp [Sense.compare, sense_subject hs, sense_value passes hv hx, positive], rfl⟩
  · exact ⟨by simp [Sense.compare, sense_subject_none hn, sense_subject hs, sense_value passes hv hx, positive], rfl⟩

theorem between_sense (passes : PassesValues subject) {operand lower upper : ResolvedOperand} {negated : Bool}
    (h : Atom.between convert subject operand lower upper negated = .ok a) :
    (sense convert subject).between operand lower upper = some a.positive ∧ a.negated = negated := by
  simp only [Atom.between, bind_eq_ok, Except.ok.injEq] at h
  obtain ⟨s, hs, l, hl, u, hu, x, hx, y, hy, rfl⟩ := h
  exact ⟨by simp [Sense.between, sense_subject (requireSubject_ok hs), sense_value passes hl hx,
    sense_value passes hu hy, positive], rfl⟩

theorem among_sense (passes : PassesValues subject) {operand : ResolvedOperand} {values : List ResolvedOperand}
    {negated : Bool} (h : Atom.among convert subject operand values negated = .ok a) :
    (sense convert subject).among operand values = some a.positive ∧ a.negated = negated := by
  simp only [Atom.among, bind_eq_ok, Except.ok.injEq, mapM_eq_ok] at h
  obtain ⟨s, hs, ws, hws, xs, hxs, rfl⟩ := h
  exact ⟨by simp [Sense.among, sense_subject (requireSubject_ok hs), sense_values passes hws hxs, positive], rfl⟩

theorem like_sense (passes : PassesValues subject) {operand pattern : ResolvedOperand} {escape : Option Char}
    {negated : Bool} (h : Atom.like subject operand pattern escape negated = .ok a) :
    (sense convert subject).like operand pattern escape = some a.positive ∧ a.negated = negated := by
  simp only [Atom.like, bind_eq_ok, Except.ok.injEq] at h
  obtain ⟨s, hs, w, hw, rfl⟩ := h
  exact ⟨by simp [Sense.like, sense_subject (requireSubject_ok hs), sense_comparand passes hw, positive], rfl⟩

theorem isNull_sense {operand : ResolvedOperand} {negated : Bool}
    (h : Atom.isNull subject operand negated = .ok a) :
    (sense convert subject).isNull operand = some a.positive ∧ a.negated = negated := by
  simp only [Atom.isNull, bind_eq_ok, Except.ok.injEq] at h
  obtain ⟨s, hs, rfl⟩ := h
  exact ⟨by simp [Sense.isNull, sense_subject (requireSubject_ok hs), positive], rfl⟩

theorem predicate_holds {Q : Type} (site : Site Q) (a : Atom) (ν : Valuation) :
    (a.predicate site).Holds ν.holds ↔ Signed a.negated (ν.Satisfies (some a.positive)) := by
  cases h : a.negated <;> simp [predicate, h, Predicate.Holds, Signed, Valuation.Satisfies, positive]

/-- an atom that is the positive test `t`, negated or not, makes a predicate that says so -/
theorem holds_of_sense {Q : Type} {site : Site Q} {ν : Valuation} {t : Option Positive} {negated : Bool}
    (h : t = some a.positive ∧ a.negated = negated) :
    (a.predicate site).Holds ν.holds ↔ Signed negated (ν.Satisfies t) := by
  rw [predicate_holds, h.1, h.2]

end Atom

namespace Render

variable {Q : Type}

mutual

/-- **The tree of a condition means what the condition does.** -/
theorem tree_holds (site : Site Q) {subject : SubjectOf} (passes : PassesValues subject) (ν : Valuation) :
    ∀ (c : Condition ResolvedOperand) {p : Predicate Q}, tree site subject c = .ok p →
      (p.Holds ν.holds ↔ c.Holds (sense site.convert subject) ν)
  | .and cs, p, h => by
    simp only [tree, bind_eq_ok, Except.ok.injEq] at h
    obtain ⟨ps, hps, rfl⟩ := h
    rw [Predicate.Holds, Condition.Holds, (trees_holds site passes ν cs hps).1]
  | .or cs, p, h => by
    simp only [tree, bind_eq_ok, Except.ok.injEq] at h
    obtain ⟨ps, hps, rfl⟩ := h
    rw [Predicate.Holds, Condition.Holds, (trees_holds site passes ν cs hps).2]
  | .not c, p, h => by
    simp only [tree, bind_eq_ok, Except.ok.injEq] at h
    obtain ⟨q, hq, rfl⟩ := h
    rw [Predicate.Holds, Condition.Holds, tree_holds site passes ν c hq]
  | .compare r left right, p, h => by
    simp only [tree, bind_eq_ok, Except.ok.injEq] at h
    obtain ⟨a, ha, rfl⟩ := h
    exact Atom.holds_of_sense (Atom.compare_sense passes ha)
  | .between operand lower upper negated, p, h => by
    simp only [tree, bind_eq_ok, Except.ok.injEq] at h
    obtain ⟨a, ha, rfl⟩ := h
    exact Atom.holds_of_sense (Atom.between_sense passes ha)
  | .among operand values negated, p, h => by
    simp only [tree, bind_eq_ok, Except.ok.injEq] at h
    obtain ⟨a, ha, rfl⟩ := h
    exact Atom.holds_of_sense (Atom.among_sense passes ha)
  | .like operand pattern escape negated, p, h => by
    simp only [tree, bind_eq_ok, Except.ok.injEq] at h
    obtain ⟨a, ha, rfl⟩ := h
    exact Atom.holds_of_sense (Atom.like_sense passes ha)
  | .isNull operand negated, p, h => by
    simp only [tree, bind_eq_ok, Except.ok.injEq] at h
    obtain ⟨a, ha, rfl⟩ := h
    exact Atom.holds_of_sense (Atom.isNull_sense ha)

theorem trees_holds (site : Site Q) {subject : SubjectOf} (passes : PassesValues subject) (ν : Valuation) :
    ∀ (cs : List (Condition ResolvedOperand)) {ps : List (Predicate Q)}, trees site subject cs = .ok ps →
      (Predicate.AllHold ν.holds ps ↔ Condition.AllHold (sense site.convert subject) ν cs) ∧
        (Predicate.AnyHolds ν.holds ps ↔ Condition.AnyHolds (sense site.convert subject) ν cs)
  | [], ps, h => by
    cases h
    exact ⟨Iff.rfl, Iff.rfl⟩
  | c :: rest, ps, h => by
    simp only [trees, bind_eq_ok, Except.ok.injEq] at h
    obtain ⟨p, hp, qs, hqs, rfl⟩ := h
    obtain ⟨all, any⟩ := trees_holds site passes ν rest hqs
    simp only [Predicate.AllHold, Predicate.AnyHolds, Condition.AllHold, Condition.AnyHolds,
      tree_holds site passes ν c hp, all, any, and_self]

end

end Render

end EntitySearch
