/-
Records of queries, and what every factory makes of them.

A record has a meaning of its own (`Trace.Holds`), the one that its calls are meant to have (`holds_interprets`). And
nothing in a predicate tree depends on the factory except its calls: a tree made for the recording factory and rendered
by it gives a record, and replaying the record with a factory gives what the tree made for that factory gives.
-/
import EntitySearch.Backend.Trace
import EntitySearch.Proofs.Predicate.Meaning

namespace EntitySearch

namespace Trace

/-! ## The meaning of a record -/

mutual

/-- the meaning of a record over the truth of tests -/
def Holds (truth : Option Aggregation → Test → Prop) : Trace → Prop
  | .matchAll _ => True
  | .leaf _ a t => truth a t
  | .and must mustNot => AllHold truth must ∧ NoneHolds truth mustNot
  | .or parts => AnyHolds truth parts
  | .not part => ¬ Holds truth part

def AllHold (truth : Option Aggregation → Test → Prop) : List Trace → Prop
  | [] => True
  | t :: rest => Holds truth t ∧ AllHold truth rest

def NoneHolds (truth : Option Aggregation → Test → Prop) : List Trace → Prop
  | [] => True
  | t :: rest => ¬ Holds truth t ∧ NoneHolds truth rest

def AnyHolds (truth : Option Aggregation → Test → Prop) : List Trace → Prop
  | [] => False
  | t :: rest => Holds truth t ∨ AnyHolds truth rest

end

variable {truth : Option Aggregation → Test → Prop}

theorem allHold_iff (ts : List Trace) : AllHold truth ts ↔ ∀ t ∈ ts, Holds truth t := by
  induction ts with
  | nil => simp [AllHold]
  | cons t rest ih => simp [AllHold, ih]

theorem noneHolds_iff (ts : List Trace) : NoneHolds truth ts ↔ ∀ t ∈ ts, ¬ Holds truth t := by
  induction ts with
  | nil => simp [NoneHolds]
  | cons t rest ih => simp [NoneHolds, ih]

theorem anyHolds_iff (ts : List Trace) : AnyHolds truth ts ↔ ∃ t ∈ ts, Holds truth t := by
  induction ts with
  | nil => simp [AnyHolds]
  | cons t rest ih => simp [AnyHolds, ih]

/-- records have the meaning that the calls of a factory are meant to have -/
theorem holds_interprets (entity : String) (truth : Option Aggregation → Test → Prop) :
    Interprets factory entity truth (Holds truth) where
  matchAll := by simp [factory, Holds]
  leaf a t := by simp [factory, Holds]
  and must mustNot := by simp only [factory, Holds, allHold_iff, noneHolds_iff]
  or parts := by simp only [factory, Holds, anyHolds_iff]
  not part := by simp only [factory, Holds]

/-! ## The tests in a record -/

mutual

/-- the tests that a factory was asked for, in order -/
def tests : Trace → List Test
  | .matchAll _ => []
  | .leaf _ _ t => [t]
  | .and must mustNot => testsOf must ++ testsOf mustNot
  | .or parts => testsOf parts
  | .not part => tests part

def testsOf : List Trace → List Test
  | [] => []
  | t :: rest => tests t ++ testsOf rest

end

theorem replayAll_eq_map {Q : Type} (f : Factory Q) (ts : List Trace) : replayAll f ts = ts.map (replay f) := by
  induction ts with
  | nil => rfl
  | cons t rest ih => rw [replayAll, ih, List.map_cons]

end Trace

namespace Predicate

variable {Q R : Type}

/-! ## Trees of records -/

mutual

/-- the tree with the queries in its leaves replaced -/
def map (g : Q → R) : Predicate Q → Predicate R
  | .root none => .root none
  | .root (some p) => .root (some (map g p))
  | .and children => .and (mapAll g children)
  | .or children => .or (mapAll g children)
  | .not none => .not none
  | .not (some p) => .not (some (map g p))
  | .leaf t a q => .leaf t a (g q)

def mapAll (g : Q → R) : List (Predicate Q) → List (Predicate R)
  | [] => []
  | p :: rest => map g p :: mapAll g rest

end

section

variable (f : Factory Q) (entity : String)

/-- the records of what must hold and of what must not, replayed -/
abbrev replayParts (parts : List Trace × List Trace) : List Q × List Q :=
  (parts.1.map (Trace.replay f), parts.2.map (Trace.replay f))

theorem renderParts_cons_replay {p : Predicate Trace} {rest : List (Predicate Trace)} (plain : ∀ c, p ≠ .not c)
    (plain' : ∀ c, p.map (Trace.replay f) ≠ .not c)
    (hp : (p.map (Trace.replay f)).render f entity = (p.render Trace.factory entity).map (Trace.replay f))
    (hrest : renderParts f entity (mapAll (Trace.replay f) rest) =
      (renderParts Trace.factory entity rest).map (replayParts f)) :
    renderParts f entity (mapAll (Trace.replay f) (p :: rest)) =
      (renderParts Trace.factory entity (p :: rest)).map (replayParts f) := by
  rw [mapAll, renderParts_cons_plain entity plain', renderParts_cons_plain entity plain, hp, hrest]
  cases p.render Trace.factory entity with
  | error e => rfl
  | ok q => cases renderParts Trace.factory entity rest <;> rfl

mutual

/-- **Replaying a record** of a tree gives what the replayed tree gives. -/
theorem render_replay : ∀ p : Predicate Trace,
    (p.map (Trace.replay f)).render f entity = (p.render Trace.factory entity).map (Trace.replay f)
  | .root none => rfl
  | .root (some p) => render_replay p
  | .and children => by
    rw [map, render, render, renderParts_replay children]
    cases renderParts Trace.factory entity children with
    | error e => rfl
    | ok parts => simp [Except.map, Trace.factory, Trace.replay, Trace.replayAll_eq_map]
  | .or children => by
    rw [map, render, render, renderAll_replay children]
    cases renderAll Trace.factory entity children with
    | error e => rfl
    | ok parts => simp [Except.map, Trace.factory, Trace.replay, Trace.replayAll_eq_map]
  | .not none => rfl
  | .not (some p) => by
    rw [map, render, render, render_replay p]
    cases p.render Trace.factory entity <;> rfl
  | .leaf .. => rfl

theorem renderParts_replay : ∀ ps : List (Predicate Trace),
    renderParts f entity (mapAll (Trace.replay f) ps) =
      (renderParts Trace.factory entity ps).map (replayParts f)
  | [] => rfl
  | .not none :: rest => rfl
  | .not (some p) :: rest => by
    rw [mapAll, map, renderParts, renderParts, render_replay p, renderParts_replay rest]
    cases p.render Trace.factory entity with
    | error e => rfl
    | ok q => cases renderParts Trace.factory entity rest <;> rfl
  | .root none :: rest => renderParts_cons_replay f entity nofun nofun rfl (renderParts_replay rest)
  | .root (some p) :: rest =>
    renderParts_cons_replay f entity nofun nofun (render_replay (.root (some p))) (renderParts_replay rest)
  | .and children :: rest =>
    renderParts_cons_replay f entity nofun nofun (render_replay (.and children)) (renderParts_replay rest)
  | .or children :: rest =>
    renderParts_cons_replay f entity nofun nofun (render_replay (.or children)) (renderParts_replay rest)
  | .leaf .. :: rest => renderParts_cons_replay f entity nofun nofun rfl (renderParts_replay rest)

theorem renderAll_replay : ∀ ps : List (Predicate Trace),
    renderAll f entity (mapAll (Trace.replay f) ps) =
      (renderAll Trace.factory entity ps).map (List.map (Trace.replay f))
  | [] => rfl
  | p :: rest => by
    rw [mapAll, renderAll, renderAll, render_replay p, renderAll_replay rest]
    cases p.render Trace.factory entity with
    | error e => rfl
    | ok q => cases renderAll Trace.factory entity rest <;> rfl

end

end

section

variable {entity : String} {P : Test → Prop}

mutual

/-- what holds of the tests in all leaves holds of the tests in the record of a tree -/
theorem render_tests : ∀ (p : Predicate Trace) {q : Trace}, (∀ l ∈ p.leaves, ∀ t ∈ l.query.tests, P t) →
    p.render Trace.factory entity = .ok q → ∀ t ∈ q.tests, P t
  | .root none, q, _, h => by
    cases h
    simp [Trace.factory, Trace.tests]
  | .root (some p), q, each, h => render_tests p each h
  | .and children, q, each, h => by
    obtain ⟨⟨must, mustNot⟩, hparts, rfl⟩ := map_eq_ok.1 h
    exact renderParts_tests children each hparts
  | .or children, q, each, h => by
    obtain ⟨qs, hqs, rfl⟩ := map_eq_ok.1 h
    exact renderAll_tests children each hqs
  | .not none, q, _, h => by cases h
  | .not (some p), q, each, h => by
    obtain ⟨r, hr, rfl⟩ := map_eq_ok.1 h
    show ∀ t ∈ r.tests, P t
    exact render_tests p each hr
  | .leaf t a query, q, each, h => by
    cases h
    exact each ⟨t, a, query⟩ (by simp [leaves])

theorem renderParts_tests : ∀ (ps : List (Predicate Trace)) {must mustNot : List Trace},
    (∀ l ∈ leavesOf ps, ∀ t ∈ l.query.tests, P t) → renderParts Trace.factory entity ps = .ok (must, mustNot) →
      ∀ t ∈ Trace.testsOf must ++ Trace.testsOf mustNot, P t
  | [], must, mustNot, _, h => by
    cases h
    simp [Trace.testsOf]
  | p :: rest, must, mustNot, each, h => by
    obtain ⟨q, m, n, hq, hrest, hparts⟩ := renderParts_cons_ok h
    have first := render_tests p (fun l hl => each l (List.mem_append_left _ hl)) hq
    have others := renderParts_tests rest (fun l hl => each l (List.mem_append_right _ hl)) hrest
    rw [List.forall_mem_append] at others
    rcases hparts with hparts | ⟨r, rfl, hparts⟩ <;> cases hparts <;>
      simp only [Trace.testsOf, List.forall_mem_append]
    · exact ⟨⟨first, others.1⟩, others.2⟩
    · exact ⟨others.1, first, others.2⟩

theorem renderAll_tests : ∀ (ps : List (Predicate Trace)) {qs : List Trace},
    (∀ l ∈ leavesOf ps, ∀ t ∈ l.query.tests, P t) → renderAll Trace.factory entity ps = .ok qs →
      ∀ t ∈ Trace.testsOf qs, P t
  | [], qs, _, h => by
    cases h
    simp [Trace.testsOf]
  | p :: rest, qs, each, h => by
    simp only [renderAll, bind_eq_ok, Except.ok.injEq] at h
    obtain ⟨q, hq, rs, hrs, rfl⟩ := h
    have first := render_tests p (fun l hl => each l (List.mem_append_left _ hl)) hq
    have others := renderAll_tests rest (fun l hl => each l (List.mem_append_right _ hl)) hrs
    exact List.forall_mem_append.2 ⟨first, others⟩

end

end

end Predicate

end EntitySearch
