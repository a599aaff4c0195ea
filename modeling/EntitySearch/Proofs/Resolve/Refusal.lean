/-
What a refused source or join leaves behind.

A join that is refused leaves the scope as it was (`addJoin_refused`), and so does a source (`addSource_refused`), with
one exception: a source `Intrudes` if it is of another entity than the target, under a name that is free. It is refused
as well, but its alias stays bound (`Intrudes.addSource`).
- `refused_unnoticed`: an operation that is refused can be left out of a session, unless it intrudes;
- `intruder_blocks`: behind an intruder there are two root aliases, and no reference is resolved any more.
-/
import EntitySearch.Proofs.Resolve.Session
import Mathlib.Data.List.Induction

namespace EntitySearch

namespace Scope

variable {c : Catalog} {s : Scope} {calledBy : String} {name : Option String} {e : QueryError}

/-- the source is of another entity than the target, under a name that is free -/
def Intrudes (c : Catalog) (s : Scope) (calledBy : String) (name : Option String) : Prop :=
  ∃ target entity, s.target = some target ∧ c.resolve calledBy = some entity ∧ target.entity ≠ entity ∧
    s.aliases.get? (name.getD calledBy) = none

/-- the scope with one root alias more -/
def withRoot (s : Scope) (name entity : String) : Scope := { s with aliases := s.aliases.add name (.root entity) }

theorem withRoot_ne (s : Scope) (name entity : String) : s.withRoot name entity ≠ s := by
  intro same
  have sizes := congrArg (·.aliases.size) same
  simp only [withRoot, AliasTable.size_add] at sizes
  omega

/-- an intruder is refused, and its alias is bound -/
theorem Intrudes.addSource (h : s.Intrudes c calledBy name) :
    ∃ target entity, s.target = some target ∧ s.addSource c calledBy name =
      (.error (.unsupported (.severalTargets target.entity entity)), s.withRoot (name.getD calledBy) entity) := by
  obtain ⟨target, entity, ht, hc, other, free⟩ := h
  have differ : (target.entity == entity) = false := beq_eq_false_iff_ne.2 other
  exact ⟨target, entity, ht, by simp [Scope.addSource, hc, AliasTable.registerRoot, free, ht, differ, withRoot]⟩

/-- any other source that is refused leaves the scope as it was -/
theorem addSource_refused (h : (s.addSource c calledBy name).1 = .error e) (quiet : ¬s.Intrudes c calledBy name) :
    (s.addSource c calledBy name).2 = s := by
  have step := s.addSource_step c calledBy name
  generalize s.addSource c calledBy name = ended at h step
  cases step with
  | unknown _ => rfl
  | conflict _ _ => rfl
  | first _ _ _ => cases h
  | again _ _ _ => cases h
  | other known bound ht differs =>
    -- a free name is bound before the refusal, but then the source intrudes
    rcases AliasTable.bindRoot_cases bound with ⟨free, -⟩ | ⟨-, rfl⟩
    · exact absurd ⟨_, _, ht, known, differs, free⟩ quiet
    · rfl

/-- a join that is refused leaves the scope as it was -/
theorem addJoin_refused {name : String} {path : Path} (h : (s.addJoin name path).1 = .error e) :
    (s.addJoin name path).2 = s := by
  unfold addJoin at h ⊢
  split at h
  · cases h
  · simp [*]

/-! ## Root aliases stay -/

theorem addSource_roots (c : Catalog) (s : Scope) (calledBy : String) (name : Option String) :
    s.aliases.rootAliases.length ≤ (s.addSource c calledBy name).2.aliases.rootAliases.length := by
  rcases addSource_scope c s calledBy name with same | ⟨entity, aliases, target, hbind, -, hs⟩
  · rw [same]
  · rw [hs]
    rcases AliasTable.bindRoot_cases hbind with ⟨-, rfl⟩ | ⟨-, rfl⟩
    · simp [AliasTable.rootAliases_add_root]
    · exact Nat.le_refl _

theorem addJoin_roots (s : Scope) (name : String) (path : Path) :
    (s.addJoin name path).2.aliases.rootAliases = s.aliases.rootAliases := by
  unfold addJoin
  split
  · unfold AliasTable.bindJoin
    split
    · rfl
    · rfl
  · rfl

/-- a reference is resolved only where there is at most one root alias -/
theorem resolvePath_single {r : PathExpr} {p : Path} (h : s.resolvePath c r = .ok p) :
    s.aliases.rootAliases.length ≤ 1 := by
  have aliased {name p} (h : s.aliasPath name = .ok p) : s.aliases.rootAliases.length ≤ 1 := by
    obtain ⟨⟨⟩, single, -⟩ := bind_eq_ok.1 h
    exact checkRoots_ok single
  unfold resolvePath at h
  split at h
  · cases h
  · split at h
    · cases h
    · obtain ⟨front, hfront, -⟩ := bind_eq_ok.1 h
      unfold singleName at hfront
      split at hfront
      · exact aliased hfront
      · obtain ⟨⟨⟩, single, -⟩ := bind_eq_ok.1 hfront
        exact checkRoots_ok single
    · obtain ⟨front, hfront, -⟩ := bind_eq_ok.1 h
      unfold start at hfront
      split at hfront
      · exact aliased hfront
      · obtain ⟨⟨⟩, single, -⟩ := bind_eq_ok.1 hfront
        exact checkRoots_ok single

end Scope

namespace Session

variable (c : Catalog) (parameters : Parameters)

theorem run_append (before after : List Operation) :
    run c parameters (before ++ after) = after.foldl (step c parameters) (run c parameters before) :=
  List.foldl_append

/-- an operation that leaves the session as it was can be left out -/
theorem run_skip {before : List Operation} {o : Operation}
    (idle : (run c parameters before).step c parameters o = run c parameters before) (after : List Operation) :
    run c parameters (before ++ o :: after) = run c parameters (before ++ after) := by
  rw [run_append, run_append, List.foldl_cons, idle]

/-- giving out paths does not touch the scope -/
theorem give_scope (σ : Session) (r : Except QueryError (List Path)) : (σ.give r).scope = σ.scope := by
  cases r <;> rfl

/-- what every path given out leads to is so when one is picked, if it is so already -/
theorem fromSlot_keeps {P : Session → Prop} {σ : Session} (h : P σ) {act : Path → Session} (hact : ∀ p, P (act p))
    (slot : Nat) : P (σ.fromSlot slot act) := by
  unfold fromSlot
  split
  · exact hact _
  · exact h

/-- **Root aliases stay**, whatever is asked. -/
theorem step_roots (σ : Session) (o : Operation) :
    σ.scope.aliases.rootAliases.length ≤ (σ.step c parameters o).scope.aliases.rootAliases.length := by
  let grown (σ' : Session) : Prop := σ.scope.aliases.rootAliases.length ≤ σ'.scope.aliases.rootAliases.length
  have given (r) : grown (σ.give r) := by simp only [grown, give_scope, Nat.le_refl]
  cases o with
  | addSource calledBy name => exact Scope.addSource_roots ..
  | addJoin name slot =>
    refine fromSlot_keeps (P := grown) (Nat.le_refl _) (fun p => ?_) slot
    exact (congrArg List.length (Scope.addJoin_roots σ.scope name p)).ge
  | stepInto slot name => exact fromSlot_keeps (P := grown) (Nat.le_refl _) (fun _ => given _) slot
  | lastStep slot name => exact fromSlot_keeps (P := grown) (Nat.le_refl _) (fun _ => given _) slot
  | enter walk => exact Nat.le_refl _
  | leave => exact Nat.le_refl _
  | _ => exact given _

theorem run_roots (before after : List Operation) :
    (run c parameters before).scope.aliases.rootAliases.length ≤
      (run c parameters (before ++ after)).scope.aliases.rootAliases.length := by
  induction after using List.reverseRecOn with
  | nil => simp
  | append_singleton after o ih =>
    rw [← List.append_assoc, run_append]
    exact Nat.le_trans ih (step_roots c parameters _ o)

/-- hikes, and trips beside them -/
def hikesAndTrips : Catalog where
  entities := [⟨"Hike", none, [("difficulty", ⟨.long, false, []⟩)]⟩, ⟨"Trip", none, [("length", ⟨.long, false, []⟩)]⟩]
  sound := by decide +kernel

/-- **A refused source or join goes unnoticed, unless it intrudes.** In every state that a session reaches, a source
that is refused leaves the scope as it was exactly when it is no intruder, and a join that is refused always does; the
operation can then be left out of the session, whatever comes after it. -/
theorem refused_unnoticed (before : List Operation) :
    let s := (run c parameters before).scope
    (∀ calledBy name e, (s.addSource c calledBy name).1 = .error e →
      ((s.addSource c calledBy name).2 = s ↔ ¬s.Intrudes c calledBy name) ∧
      (¬s.Intrudes c calledBy name → ∀ after,
        run c parameters (before ++ .addSource calledBy name :: after) = run c parameters (before ++ after))) ∧
    ∀ name path e, (s.addJoin name path).1 = .error e →
      (s.addJoin name path).2 = s ∧
      ∀ slot, (run c parameters before).given[slot]? = some path → ∀ after,
        run c parameters (before ++ .addJoin name slot :: after) = run c parameters (before ++ after) := by
  intro s
  refine ⟨fun calledBy name e refused => ⟨⟨fun same intrudes => ?_, Scope.addSource_refused refused⟩, fun quiet => ?_⟩,
    fun name path e refused => ⟨Scope.addJoin_refused refused, fun slot given => ?_⟩⟩
  · obtain ⟨target, entity, -, added⟩ := intrudes.addSource
    rw [added] at same
    exact s.withRoot_ne _ _ same
  · refine run_skip c parameters ?_
    rw [step, Scope.addSource_refused refused quiet]
  · refine run_skip c parameters ?_
    simp only [step, fromSlot, given]
    rw [Scope.addJoin_refused refused]

/-- Trips under the name that hikes have already are refused, and so is a join to no embedded object; both can be left
out. -/
theorem conflict_unnoticed :
    let before := [Operation.addSource "Hike" (some "h"), .aliasPath "h"]
    let s := (run hikesAndTrips [] before).scope
    (s.addSource hikesAndTrips "Trip" (some "h")).2 = s ∧
      (∀ after, run hikesAndTrips [] (before ++ .addSource "Trip" (some "h") :: after) =
        run hikesAndTrips [] (before ++ after)) ∧
      ∀ after, run hikesAndTrips [] (before ++ .addJoin "x" 0 :: after) = run hikesAndTrips [] (before ++ after) := by
  intro before s
  obtain ⟨sources, joins⟩ := refused_unnoticed hikesAndTrips [] before
  have quiet : ¬s.Intrudes hikesAndTrips "Trip" (some "h") := fun ⟨_, _, _, _, _, free⟩ =>
    absurd free (by decide +kernel)
  obtain ⟨same, skipped⟩ := sources "Trip" (some "h") (.aliasing (.conflict "h" "Hike" "Trip")) (by decide +kernel)
  let bare := Path.ofAlias "h" (.ofEntity "Hike")
  obtain ⟨-, unjoined⟩ := joins "x" bare (Scope.leadsNowhere bare) (by decide +kernel)
  exact ⟨same.2 quiet, skipped quiet, unjoined 0 (by decide +kernel)⟩

/-- Trips under a name of their own are refused too, but the name stays bound, and a property that was found before is
not found any more. -/
theorem intruder_noticed :
    let s := (run hikesAndTrips [] [.addSource "Hike" (some "h")]).scope
    let (refused, s') := s.addSource hikesAndTrips "Trip" (some "t")
    refused = .error (.unsupported (.severalTargets "Hike" "Trip")) ∧
      s.aliases.rootAliases = ["h"] ∧ s'.aliases.rootAliases = ["h", "t"] ∧ s.aliases.size < s'.aliases.size ∧
      (s.resolvePath hikesAndTrips ⟨["h", "difficulty"], none⟩).isOk = true ∧
      s'.resolvePath hikesAndTrips ⟨["h", "difficulty"], none⟩ = .error (.unsupported .severalRoots) := by
  decide +kernel

/-- **Behind an intruder no reference is resolved any more**, whatever is asked next. -/
theorem intruder_blocks {before : List Operation} {calledBy : String} {name : Option String}
    (intrudes : (run c parameters before).scope.Intrudes c calledBy name) (after : List Operation) (r : PathExpr) :
    ¬∃ p, (run c parameters (before ++ .addSource calledBy name :: after)).scope.resolvePath c r = .ok p := by
  rintro ⟨p, hp⟩
  have single := Scope.resolvePath_single hp
  obtain ⟨target, entity, ht, added⟩ := intrudes.addSource
  obtain ⟨first, hfirst⟩ := (run_inv c parameters before).sound.rooted target ht
  have some_root := List.length_pos_of_mem (AliasTable.mem_rootAliases hfirst)
  have kept := run_roots c parameters (before ++ [.addSource calledBy name]) after
  rw [run_append, List.foldl_cons, List.foldl_nil, step, added, List.append_assoc, List.singleton_append] at kept
  simp only [Scope.withRoot, AliasTable.rootAliases_add_root, List.length_append, List.length_singleton] at kept
  omega

end Session

end EntitySearch
