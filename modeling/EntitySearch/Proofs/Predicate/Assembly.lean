/-
How the query of a tree is put together.

An `Assembly` writes down the calls of a factory, down to the queries that leaves hold. `assemble` folds a tree into one
node by node and leaves open what an And makes of its parts, of which it is told which come from Nots. Made `inOrder`,
an And is one more node of the plain fold: all parts must hold. Made `separated`, what stands inside the Nots must not
hold instead.

`render_assembled`: rendering is the second of these folds, for every factory, and fails where a Not in the tree has no
child, and only there. It uses the query of every leaf exactly once.
-/
import EntitySearch.Proofs.Predicate.Meaning
import EntitySearch.Proofs.Predicate.Whole

namespace EntitySearch

/-! ## Assemblies -/

/-- calls of a factory, one inside the other -/
inductive Assembly (Q : Type) where
  | matchAll
  | leaf (query : Q)
  | and (must mustNot : List (Assembly Q))
  | or (parts : List (Assembly Q))
  | not (part : Assembly Q)

namespace Assembly

variable {Q : Type}

mutual

/-- what a factory makes when it is called so -/
def make (f : Factory Q) (entity : String) : Assembly Q → Q
  | .matchAll => f.matchAll entity
  | .leaf query => query
  | .and must mustNot => f.and (makeAll f entity must) (makeAll f entity mustNot)
  | .or parts => f.or (makeAll f entity parts)
  | .not part => f.not (make f entity part)

def makeAll (f : Factory Q) (entity : String) : List (Assembly Q) → List Q
  | [] => []
  | a :: rest => make f entity a :: makeAll f entity rest

end

mutual

/-- the queries of leaves, each as often as it is used -/
def queries : Assembly Q → List Q
  | .matchAll => []
  | .leaf query => [query]
  | .and must mustNot => queriesOf must ++ queriesOf mustNot
  | .or parts => queriesOf parts
  | .not part => queries part

def queriesOf : List (Assembly Q) → List Q
  | [] => []
  | a :: rest => queries a ++ queriesOf rest

end

theorem queriesOf_eq_flatMap (as : List (Assembly Q)) : queriesOf as = as.flatMap queries := by
  induction as with
  | nil => rfl
  | cons a rest ih => rw [queriesOf, ih, List.flatMap_cons]

/-- what stands inside a negation -/
def inner : Assembly Q → Assembly Q
  | .not part => part
  | a => a

@[simp] theorem queries_inner (a : Assembly Q) : a.inner.queries = a.queries := by
  cases a <;> rfl

/-- what a child comes to, and whether the child is a Not -/
structure Child (Q : Type) where
  negated : Bool
  assembly : Assembly Q

/-- all parts must hold -/
def inOrder (parts : List (Child Q)) : Assembly Q := .and (parts.map Child.assembly) []

/-- the parts of what is no Not, in order -/
def kept (parts : List (Child Q)) : List (Assembly Q) := (parts.filter fun p => !p.negated).map Child.assembly

/-- what stands inside the Nots, in order -/
def moved (parts : List (Child Q)) : List (Assembly Q) := (parts.filter Child.negated).map fun p => p.assembly.inner

/-- what stands inside the Nots must not hold, and the other parts must -/
def separated (parts : List (Child Q)) : Assembly Q := .and (kept parts) (moved parts)

end Assembly

namespace Predicate

variable {Q : Type}

open Assembly (Child)

def isNegation : Predicate Q → Bool
  | .not _ => true
  | _ => false

mutual

/-- a tree folded node by node, with what an And makes of its parts left open; nothing if a Not has no child -/
def assemble (conj : List (Child Q) → Assembly Q) : Predicate Q → Option (Assembly Q)
  | .root none => some .matchAll
  | .root (some p) => assemble conj p
  | .and children => (parts conj children).map conj
  | .or children => (parts conj children).map fun parts => .or (parts.map Child.assembly)
  | .not none => none
  | .not (some p) => (assemble conj p).map .not
  | .leaf _ _ query => some (.leaf query)

def parts (conj : List (Child Q) → Assembly Q) : List (Predicate Q) → Option (List (Child Q))
  | [] => some []
  | p :: rest => do some (⟨p.isNegation, ← assemble conj p⟩ :: (← parts conj rest))

end

/-- the nodes of a tree -/
inductive HasNode (q : Predicate Q) : Predicate Q → Prop where
  | self : HasNode q q
  | root {p : Predicate Q} : HasNode q p → HasNode q (.root (some p))
  | and {p : Predicate Q} {children : List (Predicate Q)} : p ∈ children → HasNode q p → HasNode q (.and children)
  | or {p : Predicate Q} {children : List (Predicate Q)} : p ∈ children → HasNode q p → HasNode q (.or children)
  | not {p : Predicate Q} : HasNode q p → HasNode q (.not (some p))

/-! ## Rendering is a fold -/

/-- a result, or the fault of a Not without a child -/
def orEmpty {α : Type} : Option α → Except StructureError α
  | some a => .ok a
  | none => .error .emptyNegation

variable (f : Factory Q) (entity : String)

/-- the parts of an And whose first child is no Not -/
theorem renderParts_kept {p : Predicate Q} {rest : List (Predicate Q)} (hp : p.isNegation = false)
    (first : p.render f entity = orEmpty ((p.assemble .separated).map (Assembly.make f entity)))
    (others : renderParts f entity rest = orEmpty ((parts .separated rest).map fun parts =>
      (Assembly.makeAll f entity (Assembly.kept parts), Assembly.makeAll f entity (Assembly.moved parts)))) :
    renderParts f entity (p :: rest) = orEmpty ((parts .separated (p :: rest)).map fun parts =>
      (Assembly.makeAll f entity (Assembly.kept parts), Assembly.makeAll f entity (Assembly.moved parts))) := by
  have plain : ∀ c, p ≠ .not c := by
    rintro c rfl
    cases hp
  rw [renderParts_cons_plain entity plain rest, first, others, parts, hp]
  cases p.assemble .separated with
  | none => rfl
  | some a => cases parts .separated rest <;> rfl

mutual

/-- **Rendering is a fold** in which an And separates its Nots from the other parts. -/
theorem render_eq_make : ∀ p : Predicate Q,
    p.render f entity = orEmpty ((p.assemble .separated).map (Assembly.make f entity))
  | .root none => rfl
  | .root (some p) => render_eq_make p
  | .and children => by
    rw [render, renderParts_eq_make children, assemble]
    cases parts .separated children <;> rfl
  | .or children => by
    rw [render, renderAll_eq_make children, assemble]
    cases parts .separated children <;> rfl
  | .not none => rfl
  | .not (some p) => by
    rw [render, render_eq_make p, assemble]
    cases p.assemble .separated <;> rfl
  | .leaf .. => rfl

theorem renderParts_eq_make : ∀ ps : List (Predicate Q), renderParts f entity ps =
    orEmpty ((parts .separated ps).map fun parts =>
      (Assembly.makeAll f entity (Assembly.kept parts), Assembly.makeAll f entity (Assembly.moved parts)))
  | [] => rfl
  | .not none :: _ => rfl
  | .not (some p) :: rest => by
    rw [renderParts, render_eq_make p, renderParts_eq_make rest, parts, assemble]
    cases p.assemble .separated with
    | none => rfl
    | some a => cases parts .separated rest <;> rfl
  | .root child :: rest => renderParts_kept f entity rfl (render_eq_make (.root child)) (renderParts_eq_make rest)
  | .and children :: rest => renderParts_kept f entity rfl (render_eq_make (.and children)) (renderParts_eq_make rest)
  | .or children :: rest => renderParts_kept f entity rfl (render_eq_make (.or children)) (renderParts_eq_make rest)
  | .leaf t a q :: rest => renderParts_kept f entity rfl (render_eq_make (.leaf t a q)) (renderParts_eq_make rest)

theorem renderAll_eq_make : ∀ ps : List (Predicate Q), renderAll f entity ps =
    orEmpty ((parts .separated ps).map fun parts => Assembly.makeAll f entity (parts.map Child.assembly))
  | [] => rfl
  | p :: rest => by
    rw [renderAll, render_eq_make p, renderAll_eq_make rest, parts]
    cases assemble .separated p with
    | none => rfl
    | some a => cases parts .separated rest <;> rfl

end

/-! ## Every tree without an empty negation is folded -/

/-- a tree is whole when none of its nodes is a Not without a child -/
theorem HasNode.whole {p q : Predicate Q} (h : HasNode q p) (whole : p.Whole) : q.Whole := by
  induction h with
  | self => exact whole
  | root _ ih => exact ih whole
  | and hp _ ih => exact ih (allWhole_iff.1 whole _ hp)
  | or hp _ ih => exact ih (allWhole_iff.1 whole _ hp)
  | not _ ih => exact ih whole

mutual

theorem whole_of_hasNode : ∀ p : Predicate Q, ¬ HasNode (.not none) p → p.Whole
  | .root none, _ => trivial
  | .root (some p), h => whole_of_hasNode p fun hp => h (.root hp)
  | .and children, h => allWhole_of_hasNode children fun _ hp hn => h (.and hp hn)
  | .or children, h => allWhole_of_hasNode children fun _ hp hn => h (.or hp hn)
  | .not none, h => h .self
  | .not (some p), h => whole_of_hasNode p fun hp => h (.not hp)
  | .leaf .., _ => trivial

theorem allWhole_of_hasNode : ∀ ps : List (Predicate Q), (∀ p ∈ ps, ¬ HasNode (.not none) p) → AllWhole ps
  | [], _ => trivial
  | p :: rest, h => by
    rw [List.forall_mem_cons] at h
    exact ⟨whole_of_hasNode p h.1, allWhole_of_hasNode rest h.2⟩

end

theorem whole_iff {p : Predicate Q} : p.Whole ↔ ¬ HasNode (.not none) p :=
  ⟨fun whole h => h.whole whole, whole_of_hasNode p⟩

variable (conj : List (Child Q) → Assembly Q)

mutual

/-- however an And is made, the fold fails on Nots without a child only -/
theorem assemble_isSome : ∀ p : Predicate Q, (p.assemble conj).isSome ↔ p.Whole
  | .root none => by simp [assemble, Whole]
  | .root (some p) => assemble_isSome p
  | .and children => by rw [assemble, Option.isSome_map, parts_isSome children, Whole]
  | .or children => by rw [assemble, Option.isSome_map, parts_isSome children, Whole]
  | .not none => by simp [assemble, Whole]
  | .not (some p) => by rw [assemble, Option.isSome_map, assemble_isSome p, Whole]
  | .leaf .. => by simp [assemble, Whole]

theorem parts_isSome : ∀ ps : List (Predicate Q), (parts conj ps).isSome ↔ AllWhole ps
  | [] => by simp [parts, AllWhole]
  | p :: rest => by
    rw [AllWhole, ← assemble_isSome p, ← parts_isSome rest, parts]
    cases p.assemble conj with
    | none => simp
    | some a => cases parts conj rest <;> simp

end

/-! ## Queries of leaves -/

/-- one part of the queries, and then the other -/
theorem queries_separated (ps : List (Child Q)) :
    (Assembly.separated ps).queries.Perm (Assembly.queriesOf (ps.map Child.assembly)) := by
  simp only [Assembly.separated, Assembly.queries, Assembly.kept, Assembly.moved, Assembly.queriesOf_eq_flatMap,
    List.flatMap_map, Assembly.queries_inner]
  rw [← List.flatMap_append]
  refine List.Perm.flatMap_right _ (List.perm_append_comm.trans ?_)
  exact List.filter_append_perm Child.negated ps

mutual

/-- the fold uses the query of every leaf exactly once -/
theorem queries_assemble : ∀ (p : Predicate Q) {a : Assembly Q}, p.assemble .separated = some a →
    a.queries.Perm (p.leaves.map Leaf.query)
  | .root none, a, h => by
    cases h
    exact .refl _
  | .root (some p), a, h => queries_assemble p h
  | .and children, a, h => by
    obtain ⟨ps, hps, rfl⟩ := Option.map_eq_some_iff.1 h
    exact (queries_separated ps).trans (queries_parts children hps)
  | .or children, a, h => by
    obtain ⟨ps, hps, rfl⟩ := Option.map_eq_some_iff.1 h
    exact queries_parts children hps
  | .not none, a, h => by cases h
  | .not (some p), a, h => by
    obtain ⟨b, hb, rfl⟩ := Option.map_eq_some_iff.1 h
    show b.queries.Perm (p.leaves.map Leaf.query)
    exact queries_assemble p hb
  | .leaf .., a, h => by
    cases h
    exact .refl _

theorem queries_parts : ∀ (ps : List (Predicate Q)) {parts : List (Child Q)},
    Predicate.parts .separated ps = some parts →
    (Assembly.queriesOf (parts.map Child.assembly)).Perm ((leavesOf ps).map Leaf.query)
  | [], parts, h => by
    cases h
    exact .refl _
  | p :: rest, parts, h => by
    simp only [Predicate.parts, Option.bind_eq_bind, Option.bind_eq_some_iff, Option.some.injEq] at h
    obtain ⟨a, ha, others, hothers, rfl⟩ := h
    rw [leavesOf, List.map_append]
    exact (queries_assemble p ha).append (queries_parts rest hothers)

end

/-! ## Where nothing is moved -/

theorem separated_eq_inOrder {ps : List (Child Q)} (h : ∀ p ∈ ps, p.negated = false) :
    Assembly.separated ps = Assembly.inOrder ps := by
  have none_moved : ps.filter Child.negated = [] := List.filter_eq_nil_iff.2 fun p hp => by simp [h p hp]
  have all_kept : (ps.filter fun p => !p.negated) = ps := List.filter_eq_self.2 fun p hp => by simp [h p hp]
  simp only [Assembly.separated, Assembly.inOrder, Assembly.kept, Assembly.moved, none_moved, all_kept, List.map_nil]

/-- parts are marked as their children are -/
theorem negated_parts {conj : List (Child Q) → Assembly Q} {ps : List (Predicate Q)} {parts : List (Child Q)}
    (h : Predicate.parts conj ps = some parts) : parts.map Child.negated = ps.map isNegation := by
  induction ps generalizing parts with
  | nil =>
    cases h
    rfl
  | cons p rest ih =>
    simp only [Predicate.parts, Option.bind_eq_bind, Option.bind_eq_some_iff, Option.some.injEq] at h
    obtain ⟨a, -, others, hothers, rfl⟩ := h
    rw [List.map_cons, List.map_cons, ih hothers]

/-- no Not stands directly under an And -/
def Settled (p : Predicate Q) : Prop :=
  ∀ children, HasNode (.and children) p → ∀ c ∈ children, c.isNegation = false

mutual

/-- without a Not directly under an And, rendering is the plain fold -/
theorem assemble_settled : ∀ p : Predicate Q, Settled p → p.assemble .separated = p.assemble .inOrder
  | .root none, _ => rfl
  | .root (some p), h => assemble_settled p fun cs hcs => h cs (.root hcs)
  | .and children, h => by
    rw [assemble, assemble, parts_settled children fun p hp cs hcs => h cs (.and hp hcs)]
    refine Option.map_congr fun ps hps => separated_eq_inOrder fun part hpart => ?_
    have mark := List.mem_map_of_mem (f := Child.negated) hpart
    rw [negated_parts hps] at mark
    obtain ⟨c, hc, same⟩ := List.mem_map.1 mark
    rw [← same]
    exact h children .self c hc
  | .or children, h => by
    rw [assemble, assemble, parts_settled children fun p hp cs hcs => h cs (.or hp hcs)]
  | .not none, _ => rfl
  | .not (some p), h => by
    rw [assemble, assemble, assemble_settled p fun cs hcs => h cs (.not hcs)]
  | .leaf .., _ => rfl

theorem parts_settled : ∀ ps : List (Predicate Q), (∀ p ∈ ps, Settled p) → parts .separated ps = parts .inOrder ps
  | [], _ => rfl
  | p :: rest, h => by
    rw [List.forall_mem_cons] at h
    rw [parts, parts, assemble_settled p h.1, parts_settled rest h.2]

end

/-! ## Rendering -/

/-- **What rendering makes of a tree.** It fails exactly when some Not has no child, and with no other error. Otherwise
it makes, with every factory, the calls of one fold, which uses the query of every leaf once; the fold is the plain one
but for the Nots directly under an And, whose insides are put apart. -/
theorem render_assembled (p : Predicate Q) :
    (∀ f entity e, p.render f entity = .error e ↔ e = .emptyNegation ∧ HasNode (.not none) p) ∧
    (¬ HasNode (.not none) p → ∃ a, p.assemble .separated = some a ∧
      (∀ f entity, p.render f entity = .ok (a.make f entity)) ∧ a.queries.Perm (p.leaves.map Leaf.query)) ∧
    (Settled p → p.assemble .separated = p.assemble .inOrder) := by
  refine ⟨fun f entity e => ?_, fun h => ?_, assemble_settled p⟩
  · rw [render_eq_make, ← not_not (a := HasNode _ p), ← whole_iff, ← assemble_isSome .separated p]
    cases p.assemble .separated with
    | none => simp [orEmpty, eq_comm]
    | some a => simp [orEmpty]
  · obtain ⟨a, ha⟩ := Option.isSome_iff_exists.1 ((assemble_isSome .separated p).2 (whole_iff.2 h))
    exact ⟨a, ha, fun f entity => by rw [render_eq_make, ha]; rfl, queries_assemble p ha⟩

/-- a test whether there is a value, for short -/
def absent (property : String) : Predicate String := .leaf (.isNull property) none property

/-- a Not inside a Not, a Not kept apart by a Root, and an Or of nothing, all under one And -/
def tangled : Predicate String :=
  .and [absent "km", .not (some (.not (some (absent "id")))), .root (some (.not (some (absent "title")))), .or []]

/-- a Not inside an And, but not directly under it -/
def untangled : Predicate String := .not (some (.and [absent "km", .or [.not (some (absent "id"))]]))

/-- only the outer one of the two Nots moves, and none where another node stands between -/
theorem tangled_assembled :
    (¬ HasNode (.not none) tangled ∧ ∀ f entity, tangled.render f entity =
      .ok (f.and ["km", f.not "title", f.or []] [f.not "id"])) ∧
    Settled untangled ∧ untangled.assemble .separated = untangled.assemble .inOrder := by
  have filled : ¬ HasNode (.not none) tangled := whole_iff.1 (by simp [tangled, absent, Whole, AllWhole])
  have settled : Settled untangled := by
    intro children h
    cases h with
    | not h =>
      cases h with
      | self => simp [absent, isNegation]
      | and hp h =>
        rcases List.mem_pair.1 hp with rfl | rfl
        · cases h
        · cases h with
          | or hp h =>
            cases List.mem_singleton.1 hp
            cases h with
            | not h => cases h
  obtain ⟨a, ha, made, -⟩ := (render_assembled tangled).2.1 filled
  refine ⟨⟨filled, fun f entity => ?_⟩, settled, (render_assembled untangled).2.2 settled⟩
  rw [made]
  cases ha
  rfl

end Predicate

end EntitySearch
