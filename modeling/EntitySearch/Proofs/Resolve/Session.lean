/-
What the names of a query keep, whatever is asked of them.

A `Session` is a scope with every path that it has given out so far. Operations act on it in any order, also ones that
fail: sources and joins are added, clauses begin and end, names, paths, operands and conditions are resolved. Where an
operation takes a path, it takes one of those given out, by its number, so a run is any list of operations at all.

- `step_inv`, `run_inv`: scopes stay sound, and the paths given out and those bound to join aliases stay sound in them.
- `Unfolds`: aliases replaced one after the other without any bound. It comes to an end on every sound path, with the
  names that `canonical` gives (`unfolds_of_canonicalWithin`).
- `run_settled`: all paths of a session are settled. An alias stands at most in front, replacing aliases ends, every
  type is of the target entity, and the names left are those of the type reached and of a property that exists.
-/
import EntitySearch.Proofs.Resolve.Naming
import EntitySearch.Proofs.Render.Clause

namespace EntitySearch

/-! ## Paths and aliases -/

namespace Path

/-- a node of a path: its alias, or a property -/
structure Node where
  name : String
  isAlias : Bool
  type : Option ObjectType
  deriving DecidableEq, Repr

/-- the nodes of a path, the alias first if there is one -/
def nodes (p : Path) : List Node :=
  (p.start.toList.map fun name => ⟨name, true, some p.root⟩) ++ p.steps.map fun step => ⟨step.name, false, step.type⟩

/-- every type in the path is of an entity -/
structure Within (entity : String) (p : Path) : Prop where
  root : p.root.entity = entity
  steps : ∀ step ∈ p.steps, ∀ type ∈ step.type, type.entity = entity

theorem Within.terminal {entity : String} {p : Path} (h : p.Within entity) {type : ObjectType}
    (ht : p.terminal = some type) : type.entity = entity := by
  unfold Path.terminal at ht
  cases hl : p.steps.getLast? with
  | none =>
    simp only [hl, Option.some.injEq] at ht
    exact ht ▸ h.root
  | some step =>
    simp only [hl] at ht
    exact h.steps step (List.mem_of_getLast? hl) type ht

theorem Within.push {entity : String} {p : Path} (h : p.Within entity) {step : Step}
    (hstep : ∀ type ∈ step.type, type.entity = entity) : (p.push step).Within entity where
  root := h.root
  steps s hs := by
    rcases List.mem_append.1 hs with hs | hs
    · exact h.steps s hs
    · rw [List.mem_singleton.1 hs]
      exact hstep

end Path

/-- aliases replaced by what they stand for, one after the other, until names of properties are left -/
inductive AliasTable.Unfolds (t : AliasTable) : Path → List String → Prop where
  | bare {p : Path} (start : p.start = none) : Unfolds t p p.properties
  | root {p : Path} {name entity : String} (start : p.start = some name) (bound : t.get? name = some (.root entity)) :
      Unfolds t p p.properties
  | join {p inner : Path} {name : String} {front : List String} (start : p.start = some name)
      (bound : t.get? name = some (.join inner)) (rest : Unfolds t inner front) : Unfolds t p (front ++ p.properties)

theorem AliasTable.unfolds_of_canonicalWithin {t : AliasTable} {n : Nat} {p : Path} {names : List String}
    (h : t.canonicalWithin n p = .ok names) : t.Unfolds p names := by
  induction n generalizing p names with
  | zero =>
    cases hs : p.start with
    | none =>
      rw [canonicalWithin_bare hs] at h
      cases h
      exact .bare hs
    | some name => rw [canonicalWithin_zero hs] at h; cases h
  | succ n ih =>
    cases hs : p.start with
    | none =>
      rw [canonicalWithin_bare hs] at h
      cases h
      exact .bare hs
    | some name =>
      cases hb : t.get? name with
      | none => rw [canonicalWithin_unbound hs hb] at h; cases h
      | some b =>
        cases b with
        | root entity =>
          rw [canonicalWithin_root hs hb] at h
          cases h
          exact .root hs hb
        | join inner =>
          rw [canonicalWithin_join hs hb] at h
          obtain ⟨front, hfront, rfl⟩ := map_eq_ok.1 h
          exact .join hs hb (ih hfront)

/-! ## Paths that are given out -/

namespace Scope

variable {c : Catalog} {s s' : Scope} {p q : Path} {name entity : String} {target : Target}

/-- what holds of aliases and of the bare target, and is kept by every step -/
structure Closed (c : Catalog) (s : Scope) (P : Path → Prop) : Prop where
  aliased : ∀ {name p}, s.aliasPath name = .ok p → P p
  bare : ∀ {type}, s.targetType = .ok type → P (.bare type)
  into : ∀ {p name q}, P p → stepInto c p name = .ok q → P q
  last : ∀ {p name q}, P p → s.lastStep c p name = .ok q → P q

namespace Closed

variable {P : Path → Prop}

theorem singleName (h : s.Closed c P) (hp : s.singleName c name = .ok p) : P p := by
  unfold Scope.singleName at hp
  split at hp
  · exact h.aliased hp
  · simp only [bind_eq_ok] at hp
    obtain ⟨⟨⟩, -, type, htype, hp⟩ := hp
    exact h.last (h.bare htype) hp

theorem start (h : s.Closed c P) (hp : s.start c name = .ok p) : P p := by
  unfold Scope.start at hp
  split at hp
  · exact h.aliased hp
  · simp only [bind_eq_ok] at hp
    obtain ⟨⟨⟩, -, type, htype, hp⟩ := hp
    split at hp
    · cases hp
    · exact h.into (h.bare htype) hp

theorem descend (h : s.Closed c P) (hp : P p) {names : List String} (hq : descend c p names = .ok q) : P q := by
  induction names generalizing p with
  | nil =>
    cases hq
    exact hp
  | cons name rest ih =>
    simp only [Scope.descend, bind_eq_ok] at hq
    obtain ⟨next, hnext, hq⟩ := hq
    exact ih (h.into hp hnext) hq

/-- it holds of every path that is resolved -/
theorem resolvePath (h : s.Closed c P) {e : PathExpr} (hq : s.resolvePath c e = .ok q) : P q := by
  unfold Scope.resolvePath at hq
  split at hq
  · cases hq
  · split at hq
    · cases hq
    · obtain ⟨p, hp, hq⟩ := bind_eq_ok.1 hq
      exact (checkEnd_ok hq).1 ▸ h.singleName hp
    · simp only [bind_eq_ok] at hq
      obtain ⟨first, hfirst, inner, hinner, p, hp, hq⟩ := hq
      exact (checkEnd_ok hq).1 ▸ h.last (h.descend (h.start hfirst) hinner) hp

theorem resolveProperty (h : s.Closed c P) {e : PathExpr} (hq : s.resolveProperty c e = .ok q) : P q := by
  obtain ⟨p, hp, hq⟩ := bind_eq_ok.1 hq
  split at hq
  · split at hq <;> exact absurd hq bind_error_ne_ok
  · cases hq
    exact h.resolvePath hp

theorem resolveAggregate (h : s.Closed c P) {a : AggregateExpr} {r : AggregatePath}
    (hr : s.resolveAggregate c a = .ok r) : P r.path := by
  obtain ⟨p, hp, hr⟩ := bind_eq_ok.1 hr
  cases hr
  exact h.resolveProperty hp

end Closed

/-- a path that the scope may have given out: it is sound, and all of it lies within the target entity -/
def Grants (c : Catalog) (s : Scope) (p : Path) : Prop :=
  ∃ target, s.target = some target ∧ p.Sound c target.entity s.aliases s.aliases.size ∧ p.Within target.entity

theorem stepInto_within (h : p.Within entity) (hq : stepInto c p name = .ok q) : q.Within entity := by
  unfold stepInto at hq
  split at hq
  · cases hq
  · rename_i type hterminal
    split at hq
    · cases hq
    · split at hq
      · cases hq
      · cases hq
        refine h.push fun _ ht => ?_
        cases ht
        exact (h.terminal hterminal : type.entity = entity)

theorem lastStep_within (h : p.Within entity) (hq : s.lastStep c p name = .ok q) : q.Within entity := by
  unfold lastStep at hq
  split at hq
  · cases hq
  · rename_i type hterminal
    split at hq
    · cases hq
    · split at hq
      · cases hq
        refine h.push fun _ ht => ?_
        cases ht
        exact (h.terminal hterminal : type.entity = entity)
      · split at hq
        · cases hq
        · cases hq
          exact h.push nofun

/-- in a sound scope, what it may have given out is closed under steps -/
theorem Sound.grants_closed (h : s.Sound c) : s.Closed c (s.Grants c) where
  aliased hp := by
    obtain ⟨target, ht, sound⟩ := aliasPath_known h hp
    obtain ⟨-, hsteps, -⟩ := aliasPath_ok hp
    exact ⟨target, ht, sound, sound.root, by simp [hsteps]⟩
  bare htype := by
    obtain ⟨target, ht, rfl⟩ := targetType_ok htype
    exact ⟨target, ht, bare_sound .., rfl, nofun⟩
  into hp hq := by
    obtain ⟨target, ht, sound, within⟩ := hp
    obtain ⟨target', ht', sound'⟩ := stepInto_known ⟨target, ht, sound⟩ hq
    cases ht.symm.trans ht'
    exact ⟨target, ht, sound', stepInto_within within hq⟩
  last hp hq := by
    obtain ⟨target, ht, sound, within⟩ := hp
    obtain ⟨⟨target', ht', sound'⟩, -⟩ := lastStep_known ⟨target, ht, sound⟩ hq
    cases ht.symm.trans ht'
    exact ⟨target, ht, sound', lastStep_within within hq⟩

/-! ## Scopes that grow -/

/-- every alias and the target are kept -/
structure Extends (s s' : Scope) : Prop where
  aliases : s.aliases.Extends s'.aliases
  target : ∀ {target}, s.target = some target → s'.target = some target

theorem Extends.refl (s : Scope) : s.Extends s := ⟨.refl _, id⟩

theorem Grants.mono (h : s.Grants c p) (grows : s.Extends s') : s'.Grants c p :=
  let ⟨target, ht, sound, within⟩ := h
  ⟨target, grows.target ht, sound.mono grows.aliases grows.aliases.size, within⟩

/-- what a source does to a scope: at most one root alias more, and a target if there was none -/
theorem addSource_scope (c : Catalog) (s : Scope) (calledBy : String) (name : Option String) :
    (s.addSource c calledBy name).2 = s ∨ ∃ entity aliases target,
      s.aliases.bindRoot (name.getD calledBy) entity = .ok aliases ∧ (s.target = none ∨ s.target = target) ∧
        (s.addSource c calledBy name).2 = { s with aliases, target } := by
  have step := s.addSource_step c calledBy name
  generalize s.addSource c calledBy name = ended at step
  cases step with
  | unknown _ => exact .inl rfl
  | conflict _ _ => exact .inl rfl
  | first _ bound ht => exact .inr ⟨_, _, _, bound, .inl ht, rfl⟩
  | again _ bound _ => exact .inr ⟨_, _, _, bound, .inr rfl, rfl⟩
  | other _ bound _ _ => exact .inr ⟨_, _, _, bound, .inr rfl, rfl⟩

theorem addSource_extends (c : Catalog) (s : Scope) (calledBy : String) (name : Option String) :
    s.Extends (s.addSource c calledBy name).2 := by
  rcases addSource_scope c s calledBy name with same | ⟨entity, aliases, target, hbind, htarget, hs⟩
  · rw [same]
    exact .refl s
  · rw [hs]
    refine ⟨AliasTable.bindRoot_extends hbind, fun ht => ?_⟩
    rcases htarget with hn | hs
    · cases hn.symm.trans ht
    · exact hs ▸ ht

/-- a source binds no join -/
theorem addSource_join {calledBy : String} {name : Option String} {x : String} {inner : Path}
    (h : (s.addSource c calledBy name).2.aliases.get? x = some (.join inner)) :
    s.aliases.get? x = some (.join inner) := by
  rcases addSource_scope c s calledBy name with same | ⟨entity, aliases, target, hbind, -, hs⟩
  · rwa [same] at h
  · rw [hs] at h
    rcases AliasTable.bindRoot_cases hbind with ⟨-, rfl⟩ | ⟨-, rfl⟩
    · rcases AliasTable.get?_add_eq h with h | ⟨-, h⟩
      · exact h
      · cases h
    · exact h

theorem addJoin_extends (s : Scope) (name : String) (path : Path) : s.Extends (s.addJoin name path).2 := by
  unfold addJoin
  split
  · exact ⟨AliasTable.bindJoin_extends .., id⟩
  · exact .refl s

/-- a join binds no path but its own, and that only if it ends in an object -/
theorem addJoin_join {path inner : Path} {x : String}
    (h : (s.addJoin name path).2.aliases.get? x = some (.join inner)) :
    s.aliases.get? x = some (.join inner) ∨ inner = path ∧ path.endsInObject = true := by
  unfold addJoin at h
  split at h
  · rename_i hobject
    dsimp only at h
    unfold AliasTable.bindJoin at h
    split at h
    · exact .inl h
    · rcases AliasTable.get?_add_eq h with h | ⟨-, h⟩
      · exact .inl h
      · cases h
        exact .inr ⟨rfl, hobject⟩
  · exact .inl h

end Scope

/-! ## Sessions -/

/-- the paths in an operand -/
def ResolvedOperand.paths : ResolvedOperand → List Path
  | .path p => [p]
  | .aggregate a => [a.path]
  | _ => []

/-- a scope, and the paths given out so far -/
structure Session where
  scope : Scope
  given : List Path

/-- what may be asked; a `slot` is the number of a path given out before -/
inductive Operation where
  | addSource (calledBy : String) (name : Option String)
  | addJoin (name : String) (slot : Nat)
  | enter (walk : Walk)
  | leave
  | singleName (name : String)
  | aliasPath (name : String)
  | stepInto (slot : Nat) (name : String)
  | lastStep (slot : Nat) (name : String)
  | resolvePath (reference : PathExpr)
  | resolveProperty (reference : PathExpr)
  | resolveAggregate (aggregate : AggregateExpr)
  | resolveOperand (clause : Clause) (operand : Operand)
  | resolveCondition (clause : Clause) (condition : Condition Operand)

namespace Session

def initial : Session := ⟨.initial, []⟩

/-- the paths that an operation gives out if it succeeds -/
def give (σ : Session) : Except QueryError (List Path) → Session
  | .ok ps => { σ with given := σ.given ++ ps }
  | .error _ => σ

/-- goes on from a path given out before; without one nothing is done -/
def fromSlot (σ : Session) (slot : Nat) (act : Path → Session) : Session :=
  match σ.given[slot]? with
  | some p => act p
  | none => σ

def step (c : Catalog) (parameters : Parameters) (σ : Session) : Operation → Session
  | .addSource calledBy name => { σ with scope := (σ.scope.addSource c calledBy name).2 }
  | .addJoin name slot => σ.fromSlot slot fun p => { σ with scope := (σ.scope.addJoin name p).2 }
  | .enter walk => { σ with scope := σ.scope.enter walk }
  | .leave => { σ with scope := σ.scope.leave }
  | .singleName name => σ.give ((σ.scope.singleName c name).map ([·]))
  | .aliasPath name => σ.give ((σ.scope.aliasPath name).map ([·]))
  | .stepInto slot name => σ.fromSlot slot fun p => σ.give ((Scope.stepInto c p name).map ([·]))
  | .lastStep slot name => σ.fromSlot slot fun p => σ.give ((σ.scope.lastStep c p name).map ([·]))
  | .resolvePath e => σ.give ((σ.scope.resolvePath c e).map ([·]))
  | .resolveProperty e => σ.give ((σ.scope.resolveProperty c e).map ([·]))
  | .resolveAggregate a => σ.give ((σ.scope.resolveAggregate c a).map fun r => [r.path])
  | .resolveOperand clause o => σ.give ((σ.scope.resolveOperand c parameters clause o).map (·.paths))
  | .resolveCondition clause w =>
    σ.give ((σ.scope.resolveCondition c parameters clause w).map (·.operands.flatMap (·.paths)))

/-- the session after operations on a new scope -/
def run (c : Catalog) (parameters : Parameters) (operations : List Operation) : Session :=
  operations.foldl (step c parameters) initial

/-! ## What sessions keep -/

/-- The scope is sound and may have given out every path of the session, and joins end in objects. -/
structure Inv (c : Catalog) (σ : Session) : Prop where
  sound : σ.scope.Sound c
  given : ∀ p ∈ σ.given, σ.scope.Grants c p
  joined : ∀ name p, σ.scope.aliases.get? name = some (.join p) → σ.scope.Grants c p ∧ p.endsInObject = true

variable {c : Catalog} {parameters : Parameters} {σ : Session}

theorem initial_inv (c : Catalog) : initial.Inv c where
  sound := Scope.initial_sound c
  given _ h := nomatch h
  joined _ _ h := nomatch h

theorem Inv.give (h : σ.Inv c) {r : Except QueryError (List Path)}
    (hr : ∀ ps, r = .ok ps → ∀ p ∈ ps, σ.scope.Grants c p) : (σ.give r).Inv c := by
  cases r with
  | error e => exact h
  | ok ps =>
    refine { h with given := fun p hp => ?_ }
    rcases List.mem_append.1 hp with hp | hp
    · exact h.given p hp
    · exact hr ps rfl p hp

theorem Inv.give_one (h : σ.Inv c) {r : Except QueryError Path} (hr : ∀ p, r = .ok p → σ.scope.Grants c p) :
    (σ.give (r.map ([·]))).Inv c := by
  refine h.give fun ps hps => ?_
  obtain ⟨p, hp, rfl⟩ := map_eq_ok.1 hps
  simpa using hr p hp

theorem Inv.fromSlot (h : σ.Inv c) {act : Path → Session} (hact : ∀ p, σ.scope.Grants c p → (act p).Inv c)
    (slot : Nat) : (σ.fromSlot slot act).Inv c := by
  unfold Session.fromSlot
  split
  · rename_i p hp
    exact hact p (h.given p (List.mem_of_getElem? hp))
  · exact h

/-- the scope may grow, so long as it stays sound and binds no other joins than those that end in objects -/
theorem Inv.grow (h : σ.Inv c) {s : Scope} (sound : s.Sound c) (grows : σ.scope.Extends s)
    (joined : ∀ name p, s.aliases.get? name = some (.join p) →
      σ.scope.aliases.get? name = some (.join p) ∨ σ.scope.Grants c p ∧ p.endsInObject = true) :
    ({ σ with scope := s } : Session).Inv c where
  sound := sound
  given p hp := (h.given p hp).mono grows
  joined name p hb := by
    rcases joined name p hb with hb | ⟨granted, hobject⟩
    · obtain ⟨granted, hobject⟩ := h.joined name p hb
      exact ⟨granted.mono grows, hobject⟩
    · exact ⟨granted.mono grows, hobject⟩

/-- the paths of operands that are resolved have what every resolved path has -/
theorem resolveOperand_paths {s : Scope} {P : Path → Prop} (closed : s.Closed c P) {clause : Clause} {o : Operand}
    {r : ResolvedOperand} (ho : s.resolveOperand c parameters clause o = .ok r) : ∀ p ∈ r.paths, P p := by
  cases o with
  | path e =>
    cases clause with
    | having => cases ho
    | filter =>
      obtain ⟨p, hp, ho⟩ := bind_eq_ok.1 ho
      cases ho
      simpa [ResolvedOperand.paths] using closed.resolveProperty hp
  | aggregate a =>
    cases clause with
    | filter => cases ho
    | having =>
      obtain ⟨r, hr, ho⟩ := bind_eq_ok.1 ho
      cases ho
      simpa [ResolvedOperand.paths] using closed.resolveAggregate hr
  | literal l =>
    cases ho
    simp [ResolvedOperand.paths]
  | named name =>
    simp only [Scope.resolveOperand] at ho
    split at ho <;> cases ho
    simp [ResolvedOperand.paths]
  | positional number => cases ho

/-- **One operation** keeps the invariant, whether it succeeds or fails. -/
theorem step_inv (h : σ.Inv c) (o : Operation) : (σ.step c parameters o).Inv c := by
  have closed := h.sound.grants_closed
  cases o with
  | addSource calledBy name =>
    exact h.grow (Scope.addSource_sound h.sound calledBy name) (Scope.addSource_extends ..)
      fun _ _ hb => .inl (Scope.addSource_join hb)
  | addJoin name slot =>
    refine h.fromSlot (fun p granted => ?_) slot
    have known : σ.scope.Knows c p := let ⟨target, ht, sound, _⟩ := granted; ⟨target, ht, sound⟩
    refine h.grow (Scope.addJoin_sound h.sound known name) (Scope.addJoin_extends ..) fun x inner hb => ?_
    rcases Scope.addJoin_join hb with hb | ⟨rfl, hobject⟩
    · exact .inl hb
    · exact .inr ⟨granted, hobject⟩
  | enter walk => exact h.grow (h.sound.enter walk) ⟨.refl _, id⟩ fun _ _ hb => .inl hb
  | leave => exact h.grow h.sound.leave ⟨.refl _, id⟩ fun _ _ hb => .inl hb
  | singleName name => exact h.give_one fun _ hp => closed.singleName hp
  | aliasPath name => exact h.give_one fun _ hp => closed.aliased hp
  | stepInto slot name => exact h.fromSlot (fun _ granted => h.give_one fun _ hq => closed.into granted hq) slot
  | lastStep slot name => exact h.fromSlot (fun _ granted => h.give_one fun _ hq => closed.last granted hq) slot
  | resolvePath e => exact h.give_one fun _ hp => closed.resolvePath hp
  | resolveProperty e => exact h.give_one fun _ hp => closed.resolveProperty hp
  | resolveAggregate a =>
    refine h.give fun ps hps => ?_
    obtain ⟨r, hr, rfl⟩ := map_eq_ok.1 hps
    simpa using closed.resolveAggregate hr
  | resolveOperand clause o =>
    refine h.give fun ps hps => ?_
    obtain ⟨r, hr, rfl⟩ := map_eq_ok.1 hps
    exact resolveOperand_paths closed hr
  | resolveCondition clause w =>
    refine h.give fun ps hps => ?_
    obtain ⟨d, hd, rfl⟩ := map_eq_ok.1 hps
    have each := Condition.traverse_operands (fun _ _ => resolveOperand_paths closed) w hd
    intro p hp
    obtain ⟨o, ho, hp⟩ := List.mem_flatMap.1 hp
    exact each o ho p hp

theorem run_inv (c : Catalog) (parameters : Parameters) (operations : List Operation) :
    (run c parameters operations).Inv c := by
  unfold run
  suffices keeps : ∀ σ : Session, σ.Inv c → (operations.foldl (step c parameters) σ).Inv c from
    keeps initial (initial_inv c)
  induction operations with
  | nil => exact fun _ h => h
  | cons o rest ih => exact fun σ h => ih _ (step_inv h o)

end Session

/-! ## Settled paths -/

/-- What is to be relied on in a path. -/
structure Path.Settled (c : Catalog) (entity : String) (t : AliasTable) (p : Path) : Prop where
  /-- an alias stands at most in front -/
  aliasFirst : ∀ node ∈ p.nodes.tail, node.isAlias = false
  /-- the type of the root and those of all nodes are of the entity -/
  types : p.root.entity = entity ∧ ∀ node ∈ p.nodes, ∀ type ∈ node.type, type.entity = entity
  /-- Replacing aliases comes to an end. The names left are the path of the type reached, if there is one, and lead to a
  property, if there are any. -/
  canonical : ∃ names, t.Unfolds p names ∧ t.canonical p = .ok names ∧
    (∀ type, p.terminal = some type → type.path = names) ∧ (names ≠ [] → c.hasProperty entity names = true)

namespace Path

variable {c : Catalog} {entity : String} {t : AliasTable} {p : Path}

theorem aliasFirst (p : Path) : ∀ node ∈ p.nodes.tail, node.isAlias = false := by
  have steps : ∀ node ∈ p.steps.map fun step => (⟨step.name, false, step.type⟩ : Node), node.isAlias = false := by
    simp
  cases h : p.start with
  | none =>
    intro node hnode
    simp only [nodes, h, Option.toList_none, List.map_nil, List.nil_append] at hnode
    exact steps node (List.mem_of_mem_tail hnode)
  | some name =>
    simp only [nodes, h, Option.toList_some, List.map_cons, List.map_nil, List.cons_append, List.nil_append,
      List.tail_cons]
    exact steps

theorem Within.nodes (h : p.Within entity) : ∀ node ∈ p.nodes, ∀ type ∈ node.type, type.entity = entity := by
  intro node hnode type htype
  rcases List.mem_append.1 hnode with hnode | hnode
  · obtain ⟨name, -, rfl⟩ := List.mem_map.1 hnode
    cases htype
    exact h.root
  · obtain ⟨step, hstep, rfl⟩ := List.mem_map.1 hnode
    exact h.steps step hstep type htype

/-- there is a property at the names of a sound path -/
theorem Sound.hasProperty_below {n : Nat} (h : p.Sound c entity t n) (hn : p.below ≠ []) :
    c.hasProperty entity p.below = true := by
  by_cases hs : p.steps = []
  · have root : p.below = p.root.path := by simp [below, properties, hs]
    rw [root] at hn ⊢
    exact hasProperty_of_isEmbedded (h.rooted.resolve_left hn)
  · exact h.hasProperty hs

end Path

theorem Scope.Grants.settled {c : Catalog} {s : Scope} {p : Path} (h : s.Grants c p) :
    ∃ target, s.target = some target ∧ p.Settled c target.entity s.aliases := by
  obtain ⟨target, ht, sound, within⟩ := h
  refine ⟨target, ht, p.aliasFirst, ⟨within.root, within.nodes⟩, p.below, ?_, sound.canonical, ?_, ?_⟩
  · exact AliasTable.unfolds_of_canonicalWithin sound.canonical
  · intro type htype
    rw [(sound.terminal htype).1]
  · exact sound.hasProperty_below

/-- a path that ends in an object leads to an embedded one of the target entity -/
theorem Scope.Grants.embedded {c : Catalog} {s : Scope} {p : Path} (h : s.Grants c p) (ends : p.endsInObject = true) :
    ∃ target names, s.target = some target ∧ s.aliases.canonical p = .ok names ∧
      c.isEmbedded target.entity names = true := by
  obtain ⟨target, ht, sound, -⟩ := h
  have hsteps : p.steps ≠ [] := fun none_behind => by simp [Path.endsInObject, none_behind] at ends
  exact ⟨target, p.below, ht, sound.canonical, sound.endsInObject hsteps ▸ ends⟩

namespace Session

/-- **Every path of a session is settled**, those given out and those bound to join aliases, whatever was asked before
and whether it succeeded or failed; and every join is bound to a path into an embedded object. -/
theorem run_settled (c : Catalog) (parameters : Parameters) (operations : List Operation) :
    let σ := run c parameters operations
    (∀ p, p ∈ σ.given ∨ (∃ name, σ.scope.aliases.get? name = some (.join p)) →
      ∃ target, σ.scope.target = some target ∧ p.Settled c target.entity σ.scope.aliases) ∧
    ∀ name p, σ.scope.aliases.get? name = some (.join p) → p.endsInObject = true ∧
      ∃ target names, σ.scope.target = some target ∧ σ.scope.aliases.canonical p = .ok names ∧
        c.isEmbedded target.entity names = true := by
  have inv := run_inv c parameters operations
  refine ⟨fun p hp => ?_, fun name p hb => ?_⟩
  · rcases hp with hp | ⟨name, hb⟩
    · exact (inv.given p hp).settled
    · exact (inv.joined name p hb).1.settled
  · obtain ⟨granted, ends⟩ := inv.joined name p hb
    exact ⟨ends, granted.embedded ends⟩

/-- the place where a hike starts is joined, and how high it lies is asked for; some requests in between fail -/
def ascent : List Operation :=
  [.addSource "Hike" (some "h"), .resolvePath ⟨["h", "start"], none⟩, .addSource "Trip" none, .addJoin "s" 0,
    .resolvePath ⟨["s", "length"], none⟩, .addJoin "t" 5, .resolveProperty ⟨["s", "altitude"], none⟩]

theorem ascent_settled :
    let σ := run hikes [] ascent
    (∃ p ∈ σ.given, p.text = "s.altitude" ∧
      ∃ target, σ.scope.target = some target ∧ p.Settled hikes target.entity σ.scope.aliases) ∧
    ∃ p, σ.scope.aliases.get? "s" = some (.join p) ∧ p.endsInObject = true ∧
      ∃ target names, σ.scope.target = some target ∧ σ.scope.aliases.canonical p = .ok names ∧
        hikes.isEmbedded target.entity names = true := by
  obtain ⟨settled, joined⟩ := run_settled hikes [] ascent
  constructor
  · obtain ⟨p, hp, htext⟩ : ∃ p ∈ (run hikes [] ascent).given, p.text = "s.altitude" := by decide +kernel
    exact ⟨p, hp, htext, settled p (.inl hp)⟩
  · have bound : (run hikes [] ascent).scope.aliases.get? "s" =
        some (.join ⟨⟨"Hike", []⟩, some "h", [⟨"start", some ⟨"Hike", ["start"]⟩⟩]⟩) := by decide +kernel
    exact ⟨_, bound, joined _ _ bound⟩

end Session

end EntitySearch
