/-
The record that a condition leaves.

`Render.record` gives the query that the recording factory makes for a condition, test for test, without a tree in
between: the negated parts of an And are put aside by `Trace.conj`. `query_record` says that it is the query, faults
included.
-/
import EntitySearch.Backend.Trace
import EntitySearch.Proofs.Render.Meaning

namespace EntitySearch

namespace Trace

/-- puts a part before the parts of an And: a negation goes, without its Not, to what must not hold -/
def before (part : Trace) (parts : List Trace × List Trace) : List Trace × List Trace :=
  match part with
  | .not inner => (parts.1, inner :: parts.2)
  | part => (part :: parts.1, parts.2)

/-- the And of parts -/
def conj (parts : List Trace) : Trace :=
  let (must, mustNot) := parts.foldr before ([], [])
  .and must mustNot

/-- a test, negated or not -/
def ofPositive (entity : String) (negated : Bool) (t : Positive) : Trace :=
  if negated then .not (.leaf entity t.1 t.2) else .leaf entity t.1 t.2

end Trace

namespace Render

variable (convert : Conversion) (subject : SubjectOf) (entity : String)

mutual

/-- the record of the query of a condition, or the first fault in it -/
def record : Condition ResolvedOperand → Except QueryError Trace
  | .and cs => do .ok (.conj (← records cs))
  | .or cs => do .ok (.or (← records cs))
  | .not c => do .ok (.not (← record c))
  | .compare r left right => do
    let a ← Atom.compare convert subject r left right
    .ok (.ofPositive entity a.negated a.positive)
  | .between operand lower upper negated => do
    let a ← Atom.between convert subject operand lower upper negated
    .ok (.ofPositive entity a.negated a.positive)
  | .among operand values negated => do
    let a ← Atom.among convert subject operand values negated
    .ok (.ofPositive entity a.negated a.positive)
  | .like operand pattern escape negated => do
    let a ← Atom.like subject operand pattern escape negated
    .ok (.ofPositive entity a.negated a.positive)
  | .isNull operand negated => do
    let a ← Atom.isNull subject operand negated
    .ok (.ofPositive entity a.negated a.positive)

def records : List (Condition ResolvedOperand) → Except QueryError (List Trace)
  | [] => .ok []
  | c :: rest => do .ok ((← record c) :: (← records rest))

end

/-! ## The record is the query -/

/-- the tree is rendered to the record, also as a part of an And -/
structure Shows (entity : String) (p : Predicate Trace) (t : Trace) : Prop where
  whole : p.render Trace.factory entity = .ok t
  part : ∀ rest, Predicate.renderParts Trace.factory entity (p :: rest) =
    (Predicate.renderParts Trace.factory entity rest).map t.before

/-- trees are rendered to records, one by one -/
structure ShowAll (entity : String) (ps : List (Predicate Trace)) (ts : List Trace) : Prop where
  all : Predicate.renderAll Trace.factory entity ps = .ok ts
  parts : Predicate.renderParts Trace.factory entity ps = .ok (ts.foldr Trace.before ([], []))

variable {convert subject entity}

theorem shows_and {ps : List (Predicate Trace)} {ts : List Trace} (h : ShowAll entity ps ts) :
    Shows entity (.and ps) (.conj ts) where
  whole := by
    rw [Predicate.render, h.parts]
    rfl
  part rest := by
    rw [Predicate.renderParts, Predicate.render, h.parts]
    · cases Predicate.renderParts Trace.factory entity rest <;> rfl
    · nofun
    · nofun

theorem shows_or {ps : List (Predicate Trace)} {ts : List Trace} (h : ShowAll entity ps ts) :
    Shows entity (.or ps) (.or ts) where
  whole := by
    rw [Predicate.render, h.all]
    rfl
  part rest := by
    rw [Predicate.renderParts, Predicate.render, h.all]
    · cases Predicate.renderParts Trace.factory entity rest <;> rfl
    · nofun
    · nofun

theorem shows_not {p : Predicate Trace} {t : Trace} (h : Shows entity p t) :
    Shows entity (.not (some p)) (.not t) where
  whole := by
    rw [Predicate.render, h.whole]
    rfl
  part rest := by
    rw [Predicate.renderParts, h.whole]
    cases Predicate.renderParts Trace.factory entity rest <;> rfl

theorem shows_leaf (entity : String) (t : Test) (f : Option Aggregation) :
    Shows entity (.leaf t f (.leaf entity f t)) (.leaf entity f t) where
  whole := rfl
  part rest := by
    rw [Predicate.renderParts]
    · cases Predicate.renderParts Trace.factory entity rest <;> rfl
    · nofun
    · nofun

theorem shows_atom (c : Catalog) (a : Atom) :
    Shows entity (a.predicate ⟨c, entity, Trace.factory⟩) (.ofPositive entity a.negated a.positive) := by
  cases h : a.negated with
  | false =>
    simp only [Atom.predicate, Trace.ofPositive, h, Bool.false_eq_true, if_false]
    exact shows_leaf entity a.test a.subject.aggregation
  | true =>
    simp only [Atom.predicate, Trace.ofPositive, h, if_true]
    exact shows_not (shows_leaf entity a.test a.subject.aggregation)

theorem showAll_cons {p : Predicate Trace} {t : Trace} {ps : List (Predicate Trace)} {ts : List Trace}
    (h : Shows entity p t) (hs : ShowAll entity ps ts) : ShowAll entity (p :: ps) (t :: ts) where
  all := by
    rw [Predicate.renderAll, h.whole, hs.all]
    rfl
  parts := by
    rw [h.part, hs.parts]
    rfl

variable (c : Catalog)

/-- the tree of an atom beside its record -/
theorem atom_record (x : Except QueryError Atom) :
    SameOutcome (Shows entity) (x >>= fun a => .ok (a.predicate ⟨c, entity, Trace.factory⟩))
      (x >>= fun a => .ok (.ofPositive entity a.negated a.positive)) :=
  (SameOutcome.refl x).bind fun a _ same => same ▸ .ok (shows_atom c a)

mutual

theorem tree_record : ∀ w : Condition ResolvedOperand,
    SameOutcome (Shows entity) (tree ⟨c, entity, Trace.factory⟩ subject w)
      (record (Site.convert ⟨c, entity, Trace.factory⟩) subject entity w)
  | .and cs => (trees_records cs).bind fun _ _ h => .ok (shows_and h)
  | .or cs => (trees_records cs).bind fun _ _ h => .ok (shows_or h)
  | .not w => (tree_record w).bind fun _ _ h => .ok (shows_not h)
  | .compare .. => atom_record c _
  | .between .. => atom_record c _
  | .among .. => atom_record c _
  | .like .. => atom_record c _
  | .isNull .. => atom_record c _

theorem trees_records : ∀ ws : List (Condition ResolvedOperand),
    SameOutcome (ShowAll entity) (trees ⟨c, entity, Trace.factory⟩ subject ws)
      (records (Site.convert ⟨c, entity, Trace.factory⟩) subject entity ws)
  | [] => .ok ⟨rfl, rfl⟩
  | w :: rest => (tree_record w).bind fun _ _ h => (trees_records rest).bind fun _ _ hs => .ok (showAll_cons h hs)

end

/-- **The record is the query** of a condition for the recording factory. -/
theorem query_record (subject : SubjectOf) (entity : String) (w : Condition ResolvedOperand) :
    query ⟨c, entity, Trace.factory⟩ subject (some w) =
      record (Site.convert ⟨c, entity, Trace.factory⟩) subject entity w := by
  rw [query_eq]
  exact (tree_record c w).bind_eq fun p t shown => by rw [shown.whole, structural]

end Render

end EntitySearch
