/-
Drafts that are built step by step, also after steps that fail.

A `Builder` takes steps one after the other, and goes on being used whatever comes of them; its log says how each step
ended and how many scopes were open behind it. Two builders whose states are kept in step have the same log
(`Builder.Follows.log`). If a refused step leaves the state as it was, the steps that succeed do the same without it
(`Builder.Tidy.log_done`).

The steps on a draft are the opening of a scope, its closing, and a leaf. A scope is put under the one below only when
it is closed, but that one must have had room when it was opened, and nothing can be put there in between: in every
draft that is reached all scopes below the innermost have room (`Draft.Roomy`), so closing a scope never finds the place
taken. Hence a refused step leaves the draft as it was (`Draft.builder_tidy`). A test of a property or of an aggregate is
a leaf once its values are converted, and before that it does not touch the draft, so the same holds of everything that
is added at a site (`Site.builder_tidy`, `Site.log_succeeded`).
-/
import EntitySearch.Proofs.Predicate.Building

namespace EntitySearch

/-! ## Logs -/

/-- what came of a step: how it ended, and the number of scopes open behind it -/
structure Entry (α : Type) where
  step : α
  outcome : Except QueryError Unit
  depth : Nat

/-- something that is built in steps, each of which may fail -/
structure Builder (α σ : Type) where
  step : α → σ → Except QueryError Unit × σ
  depth : σ → Nat

namespace Builder

variable {α σ τ : Type}

/-- what comes of steps, one after the other, and the state behind them -/
def log (b : Builder α σ) : List α → σ → List (Entry α) × σ
  | [], s => ([], s)
  | a :: rest, s =>
    let after := b.step a s
    let further := b.log rest after.2
    (⟨a, after.1, b.depth after.2⟩ :: further.1, further.2)

/-- the entries of the steps that succeeded -/
def succeeded (entries : List (Entry α)) : List (Entry α) := entries.filter (·.outcome.isOk)

/-- every step ends the same way in related states, and leaves related states -/
structure Follows (b : Builder α σ) (c : Builder α τ) (R : σ → τ → Prop) : Prop where
  outcome : ∀ a {s t}, R s t → (b.step a s).1 = (c.step a t).1
  state : ∀ a {s t}, R s t → R (b.step a s).2 (c.step a t).2
  depth : ∀ {s t}, R s t → b.depth s = c.depth t

/-- builders that are kept in step have the same log -/
theorem Follows.log {b : Builder α σ} {c : Builder α τ} {R : σ → τ → Prop} (h : b.Follows c R) (steps : List α) {s : σ}
    {t : τ} (start : R s t) : (b.log steps s).1 = (c.log steps t).1 ∧ R (b.log steps s).2 (c.log steps t).2 := by
  induction steps generalizing s t with
  | nil => exact ⟨rfl, start⟩
  | cons a rest ih =>
    have next := h.state a start
    obtain ⟨same, behind⟩ := ih next
    refine ⟨?_, behind⟩
    simp only [Builder.log, h.outcome a start, h.depth next, same]

/-- where `P` holds, a step that is refused changes nothing, and one that succeeds keeps `P` -/
def Tidy (b : Builder α σ) (P : σ → Prop) : Prop :=
  ∀ a s, P s → (∃ e, b.step a s = (.error e, s)) ∨ ∃ s', b.step a s = (.ok (), s') ∧ P s'

/-- **Without the steps that are refused** the others end as they did, and in the same state. -/
theorem Tidy.log_done {b : Builder α σ} {P : σ → Prop} (h : b.Tidy P) (steps : List α) {s : σ} (start : P s) :
    b.log ((succeeded (b.log steps s).1).map (·.step)) s = (succeeded (b.log steps s).1, (b.log steps s).2) := by
  induction steps generalizing s with
  | nil => rfl
  | cons a rest ih =>
    rcases h a s start with ⟨e, refused⟩ | ⟨s', done, keeps⟩
    · -- the entry is left out, and the others are made from the same state
      have kept : succeeded (b.log (a :: rest) s).1 = succeeded (b.log rest s).1 := by
        simp [log, succeeded, refused, Except.isOk, Except.toBool]
      rw [kept, ih start, log, refused]
    · have kept : succeeded (b.log (a :: rest) s).1 = ⟨a, .ok (), b.depth s'⟩ :: succeeded (b.log rest s').1 := by
        simp [log, succeeded, done, Except.isOk, Except.toBool]
      rw [kept, List.map_cons, log, done, ih keeps, log, done]

end Builder

/-! ## Steps on a draft -/

/-- what joins the children of a scope -/
inductive Connective where
  | and
  | or
  | not
  deriving DecidableEq, Repr

/-- a scope without children -/
def Connective.scope {Q : Type} : Connective → Predicate Q
  | .and => .and []
  | .or => .or []
  | .not => .not none

theorem Predicate.adopt_of_hasRoom {Q : Type} {p : Predicate Q} (h : p.hasRoom = true) (child : Predicate Q) :
    ∃ q, p.adopt child = .ok q := by
  cases p with
  | root c => cases c <;> simp_all [hasRoom, adopt]
  | not c => cases c <;> simp_all [hasRoom, adopt]
  | leaf => cases h
  | _ => exact ⟨_, rfl⟩

theorem Predicate.adopt_of_full {Q : Type} {p : Predicate Q} (h : p.hasRoom = false) (child : Predicate Q) :
    p.adopt child = .error (.tooManyChildren p.label) := by
  cases p with
  | root c => cases c <;> simp_all [hasRoom, adopt]
  | not c => cases c <;> simp_all [hasRoom, adopt]
  | leaf => rfl
  | _ => cases h

namespace Draft

variable {Q : Type} {s : Draft Q}

/-- the root and the scopes above it but the innermost, this one first of all -/
def below (s : Draft Q) : List (Predicate Q) := (s.scopes ++ [s.base]).tail

theorem below_push (scope : Predicate Q) (s : Draft Q) :
    ({ s with scopes := scope :: s.scopes } : Draft Q).below = s.top :: s.below := by
  obtain ⟨scopes, base⟩ := s
  cases scopes <;> rfl

theorem length_below (s : Draft Q) : s.below.length = s.depth := by simp [below, depth]

@[simp] theorem top_withTop (s : Draft Q) (p : Predicate Q) : (s.withTop p).top = p := by
  obtain ⟨scopes, base⟩ := s
  cases scopes <;> rfl

@[simp] theorem below_withTop (s : Draft Q) (p : Predicate Q) : (s.withTop p).below = s.below := by
  obtain ⟨scopes, base⟩ := s
  cases scopes <;> rfl

/-- a step on a draft -/
inductive Step (Q : Type) where
  | push (connective : Connective)
  | pop
  | leaf (test : Test) (aggregation : Option Aggregation) (query : Q)

def Step.act : Step Q → Building Q Unit
  | .push connective => Draft.push connective.scope
  | .pop => Draft.pop
  | .leaf test aggregation query => Draft.place (.leaf test aggregation query)

/-- drafts as they are built -/
def builder : Builder (Step Q) (Draft Q) := ⟨fun a s => a.act.run.run s, depth⟩

/-- every scope below the innermost one can take one more child -/
def Roomy (s : Draft Q) : Prop := ∀ p ∈ s.below, p.hasRoom = true

theorem initial_roomy : (initial : Draft Q).Roomy := by simp [Roomy, initial, below]

/-! ### What a step does -/

theorem step_push (h : s.top.hasRoom = true) (connective : Connective) :
    builder.step (.push connective) s = (.ok (), { s with scopes := connective.scope :: s.scopes }) :=
  (Building.run_push _ s).trans (if_pos h)

theorem step_leaf (h : s.top.hasRoom = true) (test : Test) (aggregation : Option Aggregation) (query : Q) :
    ∃ p, s.top.adopt (.leaf test aggregation query) = .ok p ∧
      builder.step (.leaf test aggregation query) s = (.ok (), s.withTop p) := by
  obtain ⟨p, hp⟩ := Predicate.adopt_of_hasRoom h (.leaf test aggregation query)
  refine ⟨p, hp, (Building.run_place _ s).trans ?_⟩
  rw [hp]

theorem step_full (h : s.top.hasRoom = false) (a : Step Q) (opens : a ≠ .pop) :
    builder.step a s = (.error (.structural (.tooManyChildren s.top.label)), s) := by
  cases a with
  | push connective => exact (Building.run_push _ s).trans (if_neg (by simp [h]))
  | pop => exact absurd rfl opens
  | leaf test aggregation query =>
    refine (Building.run_place _ s).trans ?_
    rw [Predicate.adopt_of_full h]

theorem step_pop_none (base : Predicate Q) :
    builder.step .pop (⟨[], base⟩ : Draft Q) = (.error (.structural .noOpenScope), ⟨[], base⟩) := rfl

/-- the scope below takes the closed one, for it has room -/
theorem step_pop {closed : Predicate Q} {rest : List (Predicate Q)} {base : Predicate Q}
    (h : (⟨closed :: rest, base⟩ : Draft Q).Roomy) :
    ∃ p, (⟨rest, base⟩ : Draft Q).top.adopt closed = .ok p ∧
      builder.step .pop (⟨closed :: rest, base⟩ : Draft Q) = (.ok (), (⟨rest, base⟩ : Draft Q).withTop p) := by
  have room : (⟨rest, base⟩ : Draft Q).top.hasRoom = true := by
    refine h _ ?_
    rw [show (⟨closed :: rest, base⟩ : Draft Q).below = _ from below_push closed ⟨rest, base⟩]
    exact List.mem_cons_self
  obtain ⟨p, hp⟩ := Predicate.adopt_of_hasRoom room closed
  refine ⟨p, hp, (Building.run_pop closed rest base).trans ((Building.run_place _ _).trans ?_)⟩
  rw [hp]

/-! ### What every step keeps -/

theorem Roomy.withTop (h : s.Roomy) (p : Predicate Q) : (s.withTop p).Roomy := by
  rw [Roomy, below_withTop]
  exact h

theorem Roomy.rest {closed : Predicate Q} {rest : List (Predicate Q)} {base : Predicate Q}
    (h : (⟨closed :: rest, base⟩ : Draft Q).Roomy) : (⟨rest, base⟩ : Draft Q).Roomy := by
  intro p hp
  refine h p ?_
  rw [show (⟨closed :: rest, base⟩ : Draft Q).below = _ from below_push closed ⟨rest, base⟩]
  exact List.mem_cons_of_mem _ hp

theorem Roomy.push (h : s.Roomy) (room : s.top.hasRoom = true) (scope : Predicate Q) :
    ({ s with scopes := scope :: s.scopes } : Draft Q).Roomy := by
  rw [Roomy, below_push]
  exact List.forall_mem_cons.2 ⟨room, h⟩

/-- **A refused step changes nothing**, and one that succeeds leaves room below the innermost scope. -/
theorem builder_tidy : (builder : Builder (Step Q) (Draft Q)).Tidy Roomy := by
  intro a s h
  cases a with
  | pop =>
    obtain ⟨scopes, base⟩ := s
    cases scopes with
    | nil => exact .inl ⟨_, step_pop_none base⟩
    | cons closed rest =>
      obtain ⟨p, -, done⟩ := step_pop h
      exact .inr ⟨_, done, h.rest.withTop p⟩
  | push connective =>
    cases room : s.top.hasRoom with
    | false => exact .inl ⟨_, step_full room _ nofun⟩
    | true => exact .inr ⟨_, step_push room connective, h.push room _⟩
  | leaf test aggregation query =>
    cases room : s.top.hasRoom with
    | false => exact .inl ⟨_, step_full room _ nofun⟩
    | true =>
      obtain ⟨p, -, done⟩ := step_leaf room test aggregation query
      exact .inr ⟨_, done, h.withTop p⟩

end Draft

/-! ## Tests at a site -/

namespace Building

variable {Q α : Type}

/-- the operation fails without touching the draft, or is a step on it -/
def Simple (m : Building Q Unit) : Prop :=
  (∃ e, ∀ s : Draft Q, m.run.run s = (.error e, s)) ∨ ∃ a : Draft.Step Q, m = a.act

/-- what goes before in a computation does not touch the draft -/
theorem Simple.ofExcept {x : Except QueryError α} {f : α → Building Q Unit} (h : ∀ a, Simple (f a)) :
    Simple (MonadExcept.ofExcept x >>= f) := by
  cases x with
  | error e => exact .inl ⟨e, fun _ => rfl⟩
  | ok a => exact h a

end Building

namespace Site

variable {Q : Type}

/-- what may be asked for at a site -/
inductive Step where
  | push (connective : Connective)
  | pop
  | relation (s : Subject) (r : Relation) (value : Comparand)
  | range (s : Subject) (lower upper : Comparand)
  | among (s : Subject) (values : List Comparand)
  | pattern (s : Subject) (pattern : Comparand) (escape : Option Char)
  | absence (s : Subject)

def act (site : Site Q) : Step → Building Q Unit
  | .push connective => Draft.push connective.scope
  | .pop => Draft.pop
  | .relation s r value => site.testRelation s r value
  | .range s lower upper => site.testRange s lower upper
  | .among s values => site.testAmong s values
  | .pattern s pattern escape => site.testPattern s pattern escape
  | .absence s => site.testAbsence s

/-- drafts as they are built at a site -/
def builder (site : Site Q) : Builder Step (Draft Q) := ⟨fun a s => (site.act a).run.run s, Draft.depth⟩

theorem addTest_simple (site : Site Q) (s : Subject) (test : Test) : (site.addTest s test).Simple :=
  .inr ⟨.leaf test s.aggregation _, rfl⟩

/-- the values of a test are converted before its leaf is placed -/
theorem act_simple (site : Site Q) (a : Step) : (site.act a).Simple := by
  cases a with
  | push connective => exact .inr ⟨.push connective, rfl⟩
  | pop => exact .inr ⟨.pop, rfl⟩
  | relation s r value => exact .ofExcept fun _ => site.addTest_simple ..
  | range s lower upper => exact .ofExcept fun _ => .ofExcept fun _ => site.addTest_simple ..
  | among s values => exact .ofExcept fun _ => site.addTest_simple ..
  | pattern s pattern escape => exact site.addTest_simple ..
  | absence s => exact site.addTest_simple ..

theorem builder_tidy (site : Site Q) : site.builder.Tidy Draft.Roomy := by
  intro a s h
  rcases site.act_simple a with ⟨e, fails⟩ | ⟨b, same⟩
  · exact .inl ⟨e, fails s⟩
  · rw [show site.builder.step a s = Draft.builder.step b s by simp only [builder, Draft.builder, same]]
    exact Draft.builder_tidy b s h

/-- **Steps that fail might as well not have been taken**: without them all other steps end as they did, each with as
many scopes open behind it, and leave the same draft, which is finished and built the same. -/
theorem log_succeeded (site : Site Q) (steps : List Step) :
    let run := site.builder.log steps Draft.initial
    let done := Builder.succeeded run.1
    site.builder.log (done.map (·.step)) Draft.initial = (done, run.2) :=
  site.builder_tidy.log_done steps Draft.initial_roomy

end Site

end EntitySearch
