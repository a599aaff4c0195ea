/-
What every scope and every path that it resolves keep.

A source may end in five ways. `SourceStep` says which scope each of them leaves, and `addSource_step` that there are no
others; what sources keep is shown by these cases.

Two accounts of where a path is must agree: the types that its steps carry, and the names that are left when aliases are
replaced. `Path.Sound` says that they do, and that the catalog has a property there; `Scope.Sound` says it of the joins
in the alias table, each with fewer aliases to be replaced than the table holds, and that a single root alias is one of
the target entity. Scopes are sound at the start, and operations keep them so whether they succeed or fail
(`addSource_sound`, `addJoin_sound`); in a sound scope every path that is resolved is sound (`resolvePath_known`).

A clause admits some ends of a path and not others. `Admits` says which, `resolvePath_known` that a resolved path has
one of them, and `resolveProperty_known` that a property is never an alias alone.
-/
import EntitySearch.Proofs.Catalog.Nesting
import EntitySearch.Proofs.Resolve.Alias
import EntitySearch.Resolve.Scope

namespace EntitySearch

namespace Path

/-- The canonical names of a path are where its types say that it is, and the catalog has a property there. -/
structure Sound (c : Catalog) (entity : String) (t : AliasTable) (n : Nat) (p : Path) : Prop where
  root : p.root.entity = entity
  /-- the root is the entity itself or an object embedded in it -/
  rooted : p.root.path = [] ∨ c.isEmbedded entity p.root.path = true
  canonical : t.canonicalWithin n p = .ok p.below
  /-- the last step is to an embedded object or to a scalar, as its type says -/
  last : ∀ step, p.steps.getLast? = some step →
    step.type = some ⟨entity, p.below⟩ ∧ c.isEmbedded entity p.below = true ∨
      step.type = none ∧ c.hasProperty entity p.below = true ∧ c.isEmbedded entity p.below = false

variable {c : Catalog} {entity : String} {t t' : AliasTable} {n m : Nat} {p : Path}

theorem Sound.mono (h : p.Sound c entity t n) (ht : t.Extends t') (hn : n ≤ m) : p.Sound c entity t' m :=
  { h with canonical := AliasTable.canonicalWithin_mono ht hn h.canonical }

theorem hasProperty_of_isEmbedded {names : List String} (h : c.isEmbedded entity names = true) :
    c.hasProperty entity names = true := by
  obtain ⟨q, hq, -⟩ := Option.any_eq_true _ _ |>.1 h
  simp [Catalog.hasProperty, hq]

/-- the type from which a sound path goes on is that of the object at its canonical names -/
theorem Sound.terminal (h : p.Sound c entity t n) {type : ObjectType} (ht : p.terminal = some type) :
    type = ⟨entity, p.below⟩ ∧ (p.below = [] ∨ c.isEmbedded entity p.below = true) := by
  unfold Path.terminal at ht
  cases hl : p.steps.getLast? with
  | none =>
    simp only [hl, Option.some.injEq] at ht
    subst ht
    have hb : p.below = p.root.path := by simp [below, properties, List.getLast?_eq_none_iff.1 hl]
    rw [hb, ← h.root]
    exact ⟨rfl, h.root.symm ▸ h.rooted⟩
  | some step =>
    simp only [hl] at ht
    rcases h.last step hl with ⟨hs, he⟩ | ⟨hs, -⟩
    · exact ⟨Option.some.inj (ht.symm.trans hs), .inr he⟩
    · cases ht.symm.trans hs

theorem Sound.push_object (h : p.Sound c entity t n) {type : ObjectType} (ht : p.terminal = some type) {name : String}
    (he : type.isEmbedded c name = true) : (p.push ⟨name, some (type.embedded name)⟩).Sound c entity t n := by
  obtain ⟨rfl, -⟩ := h.terminal ht
  refine ⟨h.root, h.rooted, ?_, ?_⟩
  · rw [below_push]
    exact AliasTable.canonicalWithin_push _ h.canonical
  · intro step hstep
    simp only [push, List.getLast?_append, List.getLast?_singleton, Option.some_or, Option.some.injEq] at hstep
    subst hstep
    rw [below_push]
    exact .inl ⟨rfl, he⟩

theorem Sound.push_scalar (h : p.Sound c entity t n) {type : ObjectType} (ht : p.terminal = some type) {name : String}
    (hp : type.hasProperty c name = true) (he : type.isEmbedded c name = false) :
    (p.push ⟨name, none⟩).Sound c entity t n := by
  obtain ⟨rfl, -⟩ := h.terminal ht
  refine ⟨h.root, h.rooted, ?_, ?_⟩
  · rw [below_push]
    exact AliasTable.canonicalWithin_push _ h.canonical
  · intro step hstep
    simp only [push, List.getLast?_append, List.getLast?_singleton, Option.some_or, Option.some.injEq] at hstep
    subst hstep
    rw [below_push]
    exact .inr ⟨rfl, hp, he⟩

/-- a sound path with a step leads to a property -/
theorem Sound.hasProperty (h : p.Sound c entity t n) (hs : p.steps ≠ []) : c.hasProperty entity p.below = true := by
  rcases h.last _ (List.getLast?_eq_some_getLast hs) with ⟨-, he⟩ | ⟨-, hp, -⟩
  · exact hasProperty_of_isEmbedded he
  · exact hp

/-- a sound path with a step ends in an object exactly when the catalog has one there -/
theorem Sound.endsInObject (h : p.Sound c entity t n) (hs : p.steps ≠ []) :
    p.endsInObject = c.isEmbedded entity p.below := by
  have hlast := List.getLast?_eq_some_getLast hs
  unfold Path.endsInObject
  rcases h.last _ hlast with ⟨htype, he⟩ | ⟨htype, -, he⟩ <;> rw [hlast, Option.any_some, htype, he] <;> rfl

end Path

namespace Scope

/-! ## What becomes of a source -/

/-- how a source ends, and the scope that it leaves -/
inductive SourceStep (c : Catalog) (s : Scope) (calledBy : String) (name : Option String) :
    Except QueryError Unit × Scope → Prop where
  | unknown (absent : c.resolve calledBy = none) :
    SourceStep c s calledBy name (.error (.schema (.unknownEntity calledBy)), s)
  | conflict {entity : String} {e : AliasError} (known : c.resolve calledBy = some entity)
    (refused : s.aliases.bindRoot (name.getD calledBy) entity = .error e) :
    SourceStep c s calledBy name (.error (.aliasing e), s)
  /-- the entity is the target from now on -/
  | first {entity : String} {aliases : AliasTable} (known : c.resolve calledBy = some entity)
    (bound : s.aliases.bindRoot (name.getD calledBy) entity = .ok aliases) (ht : s.target = none) :
    SourceStep c s calledBy name (.ok (), { s with aliases, target := some ⟨entity, calledBy⟩ })
  | again {target : Target} {aliases : AliasTable} (known : c.resolve calledBy = some target.entity)
    (bound : s.aliases.bindRoot (name.getD calledBy) target.entity = .ok aliases) (ht : s.target = some target) :
    SourceStep c s calledBy name (.ok (), { s with aliases })
  /-- refused, with the alias bound -/
  | other {target : Target} {entity : String} {aliases : AliasTable} (known : c.resolve calledBy = some entity)
    (bound : s.aliases.bindRoot (name.getD calledBy) entity = .ok aliases) (ht : s.target = some target)
    (differs : target.entity ≠ entity) :
    SourceStep c s calledBy name (.error (.unsupported (.severalTargets target.entity entity)), { s with aliases })

/-- **What a source does to a scope**, in the one place where it is taken apart. -/
theorem addSource_step (c : Catalog) (s : Scope) (calledBy : String) (name : Option String) :
    s.SourceStep c calledBy name (s.addSource c calledBy name) := by
  unfold addSource
  cases known : c.resolve calledBy with
  | none => exact .unknown known
  | some entity =>
    dsimp only
    rcases registered : s.aliases.registerRoot (name.getD calledBy) entity with ⟨e | _, aliases⟩
    · obtain rfl := AliasTable.registerRoot_refused registered
      exact .conflict known (by rw [AliasTable.bindRoot, registered])
    · have bound := AliasTable.bindRoot_eq_ok.2 registered
      cases ht : s.target with
      | none => exact .first known bound ht
      | some target =>
        by_cases alike : target.entity = entity
        · subst alike
          simpa [ht] using SourceStep.again known bound ht
        · simpa [ht, alike] using SourceStep.other known bound ht alike

/-! ## Sound scopes -/

/-- a path that the scope may have resolved -/
def Knows (c : Catalog) (s : Scope) (p : Path) : Prop :=
  ∃ target, s.target = some target ∧ p.Sound c target.entity s.aliases s.aliases.size

/-- The aliases agree with the target entity. -/
structure Sound (c : Catalog) (s : Scope) : Prop where
  /-- without a target nothing is bound -/
  unbound : s.target = none → s.aliases = .empty
  /-- the target has an alias -/
  rooted : ∀ target, s.target = some target → ∃ name, s.aliases.get? name = some (.root target.entity)
  /-- a root alias that is the only one stands for the target -/
  root : s.aliases.rootAliases.length ≤ 1 → ∀ name entity, s.aliases.get? name = some (.root entity) →
    s.target.map (·.entity) = some entity
  /-- a join is sound with fewer aliases to be replaced than there are -/
  join : ∀ name inner, s.aliases.get? name = some (.join inner) →
    ∃ target n, s.target = some target ∧ n < s.aliases.size ∧ inner.Sound c target.entity s.aliases n

theorem initial_sound (c : Catalog) : initial.Sound c where
  unbound _ := rfl
  rooted _ h := by cases h
  root _ _ _ h := by cases h
  join _ _ h := by cases h

/-- soundness does not depend on the clause being walked -/
theorem Sound.of_eq {c : Catalog} {s s' : Scope} (h : s.Sound c) (ha : s'.aliases = s.aliases)
    (ht : s'.target = s.target) : s'.Sound c where
  unbound := by rw [ha, ht]; exact h.unbound
  rooted := by rw [ha, ht]; exact h.rooted
  root := by rw [ha, ht]; exact h.root
  join := by rw [ha, ht]; exact h.join

theorem Sound.enter {c : Catalog} {s : Scope} (h : s.Sound c) (w : Walk) : (s.enter w).Sound c := h.of_eq rfl rfl

theorem Sound.leave {c : Catalog} {s : Scope} (h : s.Sound c) : s.leave.Sound c := h.of_eq rfl rfl

variable {c : Catalog} {s s' : Scope}

/-- an alias is bound to the target while there is none -/
theorem Sound.first_root (h : s.Sound c) (ht : s.target = none) (name entity calledBy : String) :
    ({ s with aliases := s.aliases.add name (.root entity), target := some ⟨entity, calledBy⟩ } : Scope).Sound c := by
  have empty := h.unbound ht
  refine ⟨nofun, ?_, ?_, ?_⟩
  · rintro target ht'
    cases ht'
    exact ⟨name, AliasTable.get?_add_self (by rw [empty]; rfl) _⟩
  · intro _ name' entity' hb
    rcases AliasTable.get?_add_eq hb with hb | ⟨-, hb⟩
    · rw [empty] at hb
      cases hb
    · cases hb
      rfl
  · intro name' inner hb
    rcases AliasTable.get?_add_eq hb with hb | ⟨-, hb⟩
    · rw [empty] at hb
      cases hb
    · cases hb

/-- one more root alias beside that of the target leaves no single one -/
theorem Sound.further_root (h : s.Sound c) {target : Target} (ht : s.target = some target) (name entity : String) :
    ({ s with aliases := s.aliases.add name (.root entity) } : Scope).Sound c := by
  obtain ⟨first, hfirst⟩ := h.rooted target ht
  have grows := AliasTable.add_extends s.aliases name (.root entity)
  refine ⟨fun hn => ?_, fun target' ht' => ?_, fun single => ?_, fun name' inner hb => ?_⟩
  · cases ht.symm.trans hn
  · obtain ⟨first', hfirst'⟩ := h.rooted target' ht'
    exact ⟨first', grows.get? hfirst'⟩
  · have some_root := List.length_pos_of_mem (AliasTable.mem_rootAliases hfirst)
    simp only [AliasTable.rootAliases_add_root, List.length_append, List.length_singleton] at single
    omega
  · rcases AliasTable.get?_add_eq hb with hb | ⟨-, hb⟩
    · obtain ⟨target', n, ht', hn, sound⟩ := h.join name' inner hb
      exact ⟨target', n, ht', by simp only [AliasTable.size_add]; omega, sound.mono grows (Nat.le_refl _)⟩
    · cases hb

/-- beside a target, a root alias may be bound or be there already -/
theorem Sound.bindRoot (h : s.Sound c) {target : Target} (ht : s.target = some target) {name entity : String}
    {aliases : AliasTable} (bound : s.aliases.bindRoot name entity = .ok aliases) :
    ({ s with aliases } : Scope).Sound c := by
  rcases AliasTable.bindRoot_cases bound with ⟨-, rfl⟩ | ⟨-, rfl⟩
  · exact h.further_root ht name entity
  · exact h

/-- **A source keeps a scope sound**, also when it is refused. -/
theorem addSource_sound (h : s.Sound c) (calledBy : String) (name : Option String) :
    (s.addSource c calledBy name).2.Sound c := by
  have step := s.addSource_step c calledBy name
  generalize s.addSource c calledBy name = ended at step
  cases step with
  | unknown _ => exact h
  | conflict _ _ => exact h
  | first _ bound ht =>
    rcases AliasTable.bindRoot_cases bound with ⟨-, rfl⟩ | ⟨there, rfl⟩
    · exact h.first_root ht _ _ calledBy
    · rw [h.unbound ht] at there
      cases there
  | again _ bound ht => exact h.bindRoot ht bound
  | other _ bound ht _ => exact h.bindRoot ht bound

/-- **A join keeps a scope sound**, also when it is refused; its alias is replaced by a path that needs one alias less
to be replaced than the table then holds. -/
theorem addJoin_sound (h : s.Sound c) {path : Path} (known : s.Knows c path) (name : String) :
    (s.addJoin name path).2.Sound c := by
  unfold addJoin
  split
  · unfold AliasTable.bindJoin
    split
    · exact h
    · obtain ⟨target, ht, sound⟩ := known
      have grows := AliasTable.add_extends s.aliases name (.join path)
      refine ⟨fun hn => ?_, fun target' ht' => ?_, fun single name' entity' hb => ?_, fun name' inner hb => ?_⟩
      · cases ht.symm.trans hn
      · obtain ⟨first, hfirst⟩ := h.rooted target' ht'
        exact ⟨first, grows.get? hfirst⟩
      · rcases AliasTable.get?_add_eq hb with hb | ⟨-, hb⟩
        · exact h.root (by rwa [AliasTable.rootAliases_add_join] at single) name' entity' hb
        · cases hb
      · have larger : s.aliases.size < (s.aliases.add name (.join path)).size := by
          rw [AliasTable.size_add]
          omega
        rcases AliasTable.get?_add_eq hb with hb | ⟨-, hb⟩
        · obtain ⟨target', n, ht', hn, sound'⟩ := h.join name' inner hb
          exact ⟨target', n, ht', Nat.lt_trans hn larger, sound'.mono grows (Nat.le_refl _)⟩
        · cases hb
          exact ⟨target, s.aliases.size, ht, larger, sound.mono grows (Nat.le_refl _)⟩
  · exact h

/-! ## Resolved paths are sound -/

variable {p q : Path} {name : String}

theorem checkRoots_ok (h : s.checkRoots = .ok ()) : s.aliases.rootAliases.length ≤ 1 := by
  unfold checkRoots at h
  split at h
  · cases h
  · omega

theorem targetType_ok {type : ObjectType} (h : s.targetType = .ok type) :
    ∃ target, s.target = some target ∧ type = .ofEntity target.entity := by
  unfold targetType at h
  split at h
  · cases h
    exact ⟨_, ‹_›, rfl⟩
  · cases h

theorem bare_sound (c : Catalog) (entity : String) (t : AliasTable) (n : Nat) :
    (Path.bare (.ofEntity entity)).Sound c entity t n where
  root := rfl
  rooted := .inl rfl
  canonical := AliasTable.canonicalWithin_bare rfl
  last _ h := by cases h

theorem aliasPath_known (h : s.Sound c) (hp : s.aliasPath name = .ok p) : s.Knows c p := by
  simp only [aliasPath, bind_eq_ok] at hp
  obtain ⟨⟨⟩, single, hp⟩ := hp
  have single := checkRoots_ok single
  split at hp
  · rename_i entity hb
    cases hp
    obtain ⟨target, ht, rfl⟩ := Option.map_eq_some_iff.1 (h.root single name entity hb)
    obtain ⟨n, hn⟩ := Nat.exists_eq_succ_of_ne_zero (Nat.ne_of_gt (AliasTable.size_pos hb))
    refine ⟨target, ht, rfl, .inl rfl, ?_, fun _ hs => by cases hs⟩
    rw [hn]
    exact AliasTable.canonicalWithin_root rfl hb
  · rename_i inner hb
    split at hp
    · rename_i type hterminal
      cases hp
      obtain ⟨target, n, ht, hn, sound⟩ := h.join name inner hb
      obtain ⟨rfl, hrooted⟩ := sound.terminal hterminal
      obtain ⟨m, hm⟩ := Nat.exists_eq_succ_of_ne_zero (Nat.ne_of_gt (AliasTable.size_pos hb))
      refine ⟨target, ht, rfl, hrooted, ?_, fun _ hs => by cases hs⟩
      have within := AliasTable.canonicalWithin_mono (.refl _) (show n ≤ m by omega) sound.canonical
      rw [hm]
      show s.aliases.canonicalWithin (m + 1) _ = _
      rw [AliasTable.canonicalWithin_join rfl hb, within]
      rfl
    · cases hp
  · cases hp

theorem stepInto_known (known : s.Knows c p) (hq : stepInto c p name = .ok q) : s.Knows c q := by
  obtain ⟨target, ht, sound⟩ := known
  unfold stepInto at hq
  split at hq
  · cases hq
  · split at hq
    · cases hq
    · split at hq
      · cases hq
      · cases hq
        exact ⟨target, ht, sound.push_object ‹_› (by simpa using ‹¬ (!_) = true›)⟩

theorem descend_known (known : s.Knows c p) {names : List String} (hq : descend c p names = .ok q) : s.Knows c q := by
  induction names generalizing p with
  | nil =>
    cases hq
    exact known
  | cons name rest ih =>
    simp only [descend, bind_eq_ok] at hq
    obtain ⟨next, hnext, hq⟩ := hq
    exact ih (stepInto_known known hnext) hq

/-- the end of a path is a property of the kind that its type says, and, outside SELECT, no analyzed scalar -/
theorem lastStep_known (known : s.Knows c p) (hq : s.lastStep c p name = .ok q) :
    s.Knows c q ∧ q.steps ≠ [] ∧
      (s.inSelect = false → q.endsInObject = false → c.isAnalyzed q.root.entity q.below = false) := by
  obtain ⟨target, ht, sound⟩ := known
  unfold lastStep at hq
  split at hq
  · cases hq
  · rename_i type hterminal
    split at hq
    · cases hq
    · rename_i hproperty
      split at hq
      · rename_i hembedded
        cases hq
        exact ⟨⟨target, ht, sound.push_object hterminal hembedded⟩, by simp [Path.push],
          fun _ he => by simp [Path.endsInObject, Path.push] at he⟩
      · rename_i hembedded
        split at hq
        · cases hq
        · rename_i hanalyzed
          cases hq
          refine ⟨⟨target, ht, sound.push_scalar hterminal (by simpa using hproperty) (by simpa using hembedded)⟩,
            by simp [Path.push], fun hs _ => ?_⟩
          obtain ⟨rfl, -⟩ := sound.terminal hterminal
          rw [Path.below_push]
          show c.isAnalyzed p.root.entity (p.below ++ [name]) = false
          rw [sound.root]
          simpa [hs, ObjectType.isAnalyzed, ObjectType.pathTo] using hanalyzed

theorem start_known (h : s.Sound c) (hp : s.start c name = .ok p) : s.Knows c p := by
  unfold start at hp
  split at hp
  · exact aliasPath_known h hp
  · simp only [bind_eq_ok] at hp
    obtain ⟨⟨⟩, -, type, htype, hp⟩ := hp
    obtain ⟨target, ht, rfl⟩ := targetType_ok htype
    split at hp
    · cases hp
    · exact stepInto_known ⟨target, ht, bare_sound ..⟩ hp

/-! ## What a path may end in -/

/-- The ends that the clause being walked admits. -/
inductive Admits (c : Catalog) (s : Scope) (p : Path) : Prop where
  /-- an alias of a whole entity, and nothing behind it -/
  | entity {name entity : String} (start : p.start = some name) (steps : p.steps = [])
      (bound : s.aliases.get? name = some (.root entity))
  /-- an alias of an embedded object, and nothing behind it -/
  | object {name : String} {inner : Path} (start : p.start = some name) (steps : p.steps = [])
      (bound : s.aliases.get? name = some (.join inner)) (outside : s.inSelect = false)
  /-- a property: in SELECT no embedded object, elsewhere no analyzed scalar -/
  | property (steps : p.steps ≠ [])
      (selected : s.inSelect = true → c.isEmbedded p.root.entity p.below = false)
      (tested : s.inSelect = false → c.Plain p.root.entity p.below)

theorem checkEnd_ok (hq : s.checkEnd p = .ok q) :
    q = p ∧ (s.inSelect = true → p.endsInObject = false ∧ s.joinBehind p = none) := by
  unfold checkEnd at hq
  split at hq
  · cases hq
    exact ⟨rfl, fun hs => by simp [hs] at *⟩
  · split at hq
    · cases hq
    · rename_i hobject
      split at hq
      · exact absurd hq bind_error_ne_ok
      · cases hq
        exact ⟨rfl, fun _ => ⟨by simpa using hobject, ‹_›⟩⟩

/-- the start of an alias path is an alias, and it has no steps -/
theorem aliasPath_ok (hp : s.aliasPath name = .ok p) :
    p.start = some name ∧ p.steps = [] ∧ ∃ b, s.aliases.get? name = some b := by
  simp only [aliasPath, bind_eq_ok] at hp
  obtain ⟨⟨⟩, -, hp⟩ := hp
  split at hp
  · cases hp
    exact ⟨rfl, rfl, _, ‹_›⟩
  · split at hp
    · cases hp
      exact ⟨rfl, rfl, _, ‹_›⟩
    · cases hp
  · cases hp

theorem admits_alias (hp : s.aliasPath name = .ok p) (hq : s.checkEnd p = .ok q) : q = p ∧ s.Admits c q := by
  obtain ⟨hstart, hsteps, b, hb⟩ := aliasPath_ok hp
  obtain ⟨rfl, hend⟩ := checkEnd_ok hq
  refine ⟨rfl, ?_⟩
  cases b with
  | root entity => exact .entity hstart hsteps hb
  | join inner =>
    refine .object hstart hsteps hb ?_
    cases hs : s.inSelect with
    | false => rfl
    | true =>
      have none_behind := (hend hs).2
      simp [joinBehind, hstart, hsteps, hb] at none_behind

theorem admits_step (known : s.Knows c p) {p' : Path} (hp : s.lastStep c p name = .ok p') (hq : s.checkEnd p' = .ok q) :
    s.Knows c q ∧ s.Admits c q := by
  obtain ⟨known, hsteps, hanalyzed⟩ := lastStep_known known hp
  obtain ⟨rfl, hend⟩ := checkEnd_ok hq
  obtain ⟨target, ht, sound⟩ := known
  have hobject := sound.endsInObject hsteps
  rw [← sound.root] at hobject
  refine ⟨⟨target, ht, sound⟩, .property hsteps (fun hs => hobject ▸ (hend hs).1) fun hs =>
    Catalog.plain_iff.2 fun ha => ?_⟩
  cases he : q.endsInObject with
  | true => rw [← hobject, he]
  | false => rw [hanalyzed hs he] at ha; cases ha

/-- **A path that is resolved is sound and admitted**: the catalog has a property at its canonical names, of a kind that
the clause takes. -/
theorem resolvePath_known (h : s.Sound c) {e : PathExpr} (hq : s.resolvePath c e = .ok q) :
    s.Knows c q ∧ s.Admits c q := by
  unfold resolvePath at hq
  split at hq
  · cases hq
  · split at hq
    · cases hq
    · obtain ⟨p, hp, hq⟩ := bind_eq_ok.1 hq
      unfold singleName at hp
      split at hp
      · obtain ⟨rfl, admitted⟩ := admits_alias (c := c) hp hq
        exact ⟨aliasPath_known h hp, admitted⟩
      · simp only [bind_eq_ok] at hp
        obtain ⟨⟨⟩, -, type, htype, hp⟩ := hp
        obtain ⟨target, ht, rfl⟩ := targetType_ok htype
        exact admits_step ⟨target, ht, bare_sound ..⟩ hp hq
    · simp only [bind_eq_ok] at hq
      obtain ⟨first, hfirst, inner, hinner, p, hp, hq⟩ := hq
      exact admits_step (descend_known (start_known h hfirst) hinner) hp hq

/-- **A property is never an alias alone.** -/
theorem resolveProperty_known (h : s.Sound c) {e : PathExpr} (hq : s.resolveProperty c e = .ok q) :
    s.Knows c q ∧ s.Admits c q ∧ q.steps ≠ [] := by
  obtain ⟨p, hp, hq⟩ := bind_eq_ok.1 hq
  obtain ⟨known, admitted⟩ := resolvePath_known h hp
  split at hq
  · split at hq <;> exact absurd hq bind_error_ne_ok
  · rename_i more
    cases hq
    refine ⟨known, admitted, fun hsteps => ?_⟩
    cases admitted with
    | entity hstart => exact more _ hstart hsteps
    | object hstart => exact more _ hstart hsteps
    | property steps => exact steps hsteps

end Scope

end EntitySearch
