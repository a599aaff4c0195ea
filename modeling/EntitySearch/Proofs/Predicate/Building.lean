/-
What operations on a draft do when they are run.

`run_bind` says how two operations follow each other, `run_push`, `run_place` and `run_pop` what the three operations on
scopes do. From these come the two shapes in which conditions are added:
- `Adds m r`: on any draft that has room, `m` comes to the same as placing the predicate `r`, or ends in the fault `r`;
- `Fills m r`: on any draft whose innermost scope is an And or an Or, `m` puts the predicates `r` behind its children,
  or ends in the fault `r`.
Scopes may be nested: `adds_not` and `adds_scope` close a scope around what fills it. What lies below the innermost
scope is arbitrary throughout, so nothing has to be said about the rest of the draft.
-/
import EntitySearch.Predicate.Builder
import EntitySearch.Proofs.Outcome

namespace EntitySearch.Building

variable {Q α β : Type}

/-! ## Single operations -/

theorem run_bind (m : Building Q α) (f : α → Building Q β) (s : Draft Q) :
    (m >>= f).run.run s = match m.run.run s with
      | (.ok a, s') => (f a).run.run s'
      | (.error e, s') => (.error e, s') := by
  rw [ExceptT.run_bind, StateT.run_bind]
  rcases m.run.run s with ⟨(e | a), s'⟩ <;> rfl

theorem run_push (scope : Predicate Q) (s : Draft Q) :
    (Draft.push scope).run.run s =
      if s.top.hasRoom then (.ok (), { s with scopes := scope :: s.scopes })
      else (.error (.structural (.tooManyChildren s.top.label)), s) := by
  unfold Draft.push
  rw [run_bind]
  show (if _ then _ else _ : Building Q Unit).run.run s = _
  split <;> rfl

theorem run_place (node : Predicate Q) (s : Draft Q) :
    (Draft.place node).run.run s = match s.top.adopt node with
      | .ok p => (.ok (), s.withTop p)
      | .error e => (.error (.structural e), s) := by
  unfold Draft.place
  rw [run_bind]
  show (match s.top.adopt node with | .ok p => _ | .error e => _ : Building Q Unit).run.run s = _
  cases s.top.adopt node <;> rfl

theorem run_pop (closed : Predicate Q) (rest : List (Predicate Q)) (base : Predicate Q) :
    Draft.pop.run.run ⟨closed :: rest, base⟩ = (Draft.place closed).run.run ⟨rest, base⟩ := rfl

/-! ## Adding one predicate -/

/-- run on a draft that has room, the operation places the predicate, or ends in the fault -/
def Adds (m : Building Q Unit) (r : Except QueryError (Predicate Q)) : Prop :=
  ∀ s : Draft Q, s.top.hasRoom = true →
    match r with
    | .ok p => m.run.run s = (Draft.place p).run.run s
    | .error e => (m.run.run s).1 = .error e

theorem adds_place (p : Predicate Q) : Adds (Draft.place p) (.ok p) := fun _ _ => rfl

theorem adds_ofExcept {x : Except QueryError α} {f : α → Building Q Unit} {g : α → Except QueryError (Predicate Q)}
    (h : ∀ a, Adds (f a) (g a)) : Adds (MonadExcept.ofExcept x >>= f) (x >>= g) := by
  cases x with
  | error e => exact fun s _ => rfl
  | ok a => exact h a

/-! ## Scopes -/

/-- a scope that its body fills is placed as it is filled -/
theorem run_scope {scope filled : Predicate Q} {m : Building Q Unit} {s : Draft Q} (room : s.top.hasRoom = true)
    (h : m.run.run { s with scopes := scope :: s.scopes } = (.ok (), { s with scopes := filled :: s.scopes })) :
    (do Draft.push scope; m; Draft.pop : Building Q Unit).run.run s = (Draft.place filled).run.run s := by
  rw [run_bind, run_push, if_pos room]
  simp only [run_bind, h]
  exact run_pop filled s.scopes s.base

theorem run_scope_error {scope : Predicate Q} {m : Building Q Unit} {s : Draft Q} {e : QueryError}
    (room : s.top.hasRoom = true) (h : (m.run.run { s with scopes := scope :: s.scopes }).1 = .error e) :
    ((do Draft.push scope; m; Draft.pop : Building Q Unit).run.run s).1 = .error e := by
  rw [run_bind, run_push, if_pos room]
  simp only [run_bind]
  rcases hm : m.run.run { s with scopes := scope :: s.scopes } with ⟨r, s'⟩
  rw [hm] at h
  subst h
  rfl

/-- an operation inside a negation of its own -/
theorem adds_not {m : Building Q Unit} {r : Except QueryError (Predicate Q)} (h : Adds m r) :
    Adds (do Draft.push (.not none); m; Draft.pop) (r >>= fun p => .ok (.not (some p))) := by
  intro s room
  have inside := h { s with scopes := .not none :: s.scopes } rfl
  cases r with
  | error e => exact run_scope_error room inside
  | ok p => exact run_scope room (inside.trans (by rw [run_place]; rfl))

/-- a scope that can hold any number of children -/
inductive Wide : (List (Predicate Q) → Predicate Q) → Prop where
  | and : Wide .and
  | or : Wide .or

theorem Wide.hasRoom {node : List (Predicate Q) → Predicate Q} (h : Wide node) (children : List (Predicate Q)) :
    (node children).hasRoom = true := by
  cases h <;> rfl

theorem Wide.adopt {node : List (Predicate Q) → Predicate Q} (h : Wide node) (children : List (Predicate Q))
    (p : Predicate Q) : (node children).adopt p = .ok (node (children ++ [p])) := by
  cases h <;> rfl

/-- run where the innermost scope is an And or an Or, the operation puts the predicates behind its children, or ends
in the fault -/
def Fills (m : Building Q Unit) (r : Except QueryError (List (Predicate Q))) : Prop :=
  ∀ node, Wide node → ∀ (s : Draft Q) (children : List (Predicate Q)),
    match r with
    | .ok ps => m.run.run { s with scopes := node children :: s.scopes } =
        (.ok (), { s with scopes := node (children ++ ps) :: s.scopes })
    | .error e => (m.run.run { s with scopes := node children :: s.scopes }).1 = .error e

theorem fills_nil : Fills (pure () : Building Q Unit) (.ok []) := by
  intro node _ s children
  simp only [List.append_nil]
  rfl

theorem fills_cons {m ms : Building Q Unit} {r : Except QueryError (Predicate Q)}
    {rs : Except QueryError (List (Predicate Q))} (h : Adds m r) (hs : Fills ms rs) :
    Fills (do m; ms) (r >>= fun p => rs >>= fun ps => .ok (p :: ps)) := by
  intro node wide s children
  have first := h { s with scopes := node children :: s.scopes } (wide.hasRoom children)
  cases r with
  | error e =>
    simp only [bind, Except.bind] at first ⊢
    show ((m >>= fun _ => ms).run.run _).1 = _
    rw [run_bind]
    rcases hm : m.run.run { s with scopes := node children :: s.scopes } with ⟨r, s'⟩
    rw [hm] at first
    subst first
    rfl
  | ok p =>
    have placed : m.run.run { s with scopes := node children :: s.scopes } =
        (.ok (), { s with scopes := node (children ++ [p]) :: s.scopes }) := by
      rw [first, run_place]
      show (match (node children).adopt p with | .ok q => _ | .error e => _) = _
      rw [wide.adopt]
      rfl
    have others := hs node wide s (children ++ [p])
    cases rs with
    | error e =>
      show ((m >>= fun _ => ms).run.run _).1 = _
      rw [run_bind, placed]
      exact others
    | ok ps =>
      show (m >>= fun _ => ms).run.run _ = _
      rw [run_bind, placed]
      simpa using others

/-- operations that fill an And or an Or of their own -/
theorem adds_scope {node : List (Predicate Q) → Predicate Q} (wide : Wide node) {m : Building Q Unit}
    {r : Except QueryError (List (Predicate Q))} (h : Fills m r) :
    Adds (do Draft.push (node []); m; Draft.pop) (r >>= fun ps => .ok (node ps)) := by
  intro s room
  have inside := h node wide s []
  cases r with
  | error e => exact run_scope_error room inside
  | ok ps => exact run_scope room inside

end EntitySearch.Building
