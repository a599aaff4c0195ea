/-
Aliases and joins are abbreviations.

`Statement.expanded` writes every reference out, as the root alias and the canonical path, and drops the joins. The
table of aliases without the joins rewrites the one with them (`rewrites_expanded`), so a query that compiles does so
written out, with an equal result (`expanded_renders`).
-/
import EntitySearch.Proofs.Render.Replay
import EntitySearch.Proofs.Render.Rewriting
import EntitySearch.Proofs.Resolve.Rooted

namespace EntitySearch

/-- the root alias, and the canonical path to which a reference points -/
def Naming.rooted (naming : Naming) (root : String) (e : PathExpr) : PathExpr :=
  ⟨root :: naming.expand e.segments, none⟩

/-- the query with every reference written out, and without joins -/
def Statement.expanded (q : Statement) (root : String) : Statement :=
  { q.mapPaths (q.naming.rooted root) with joins := [] }

example : (hardHikes.expanded "h").groupBy = some [⟨["h", "start", "altitude"], none⟩] := by decide

namespace Scope

variable {c : Catalog} {s s' : Scope} {naming : Naming} {root : String} {target : Target}

/-- joins bind no root alias, and leave the target as it is -/
theorem addJoins_keeps {joins : List Join} (hs : s.addJoins c joins = .ok s') :
    s'.aliases.rootAliases = s.aliases.rootAliases ∧ s'.target = s.target := by
  have keeps := foldlM_follows
    (R := fun (_ : Unit) b => b.aliases.rootAliases = s.aliases.rootAliases ∧ b.target = s.target)
    (g := fun u _ => u) (fun _ b join b' h hb => ?_) (c := ()) ⟨rfl, rfl⟩ hs
  · exact keeps
  · obtain ⟨path, -, hb⟩ := bind_eq_ok.1 hb
    have added := succeeded_ok hb
    unfold addJoin at added
    split at added
    · cases added
      unfold AliasTable.bindJoin
      split
      · exact h
      · exact ⟨(AliasTable.rootAliases_add_join ..).trans h.1, h.2⟩
    · cases added

/-- the names behind the only root alias are canonical -/
theorem Follows.expand_rooted (h : s.Follows c naming) {entity : String} (rooted : s.Rooted root entity)
    (names : List String) : naming.expand (root :: names) = names := by
  simp [Naming.expand, h.reads root, rooted.bound, Binding.below]

/-- a property that is resolved is one that the clause being walked takes -/
theorem Admits.takes {p : Path} (known : s.Knows c p) (ht : s.target = some target) (admitted : s.Admits c p)
    (hsteps : p.steps ≠ []) : s.Takes c target.entity p.below :=
  let ⟨present, selected, tested⟩ := admitted.property_of known ht hsteps
  ⟨present, selected, tested⟩

theorem isRootAlias_of_steps {t : AliasTable} {p : Path} (h : p.steps ≠ []) : Render.isRootAlias t p = false := by
  cases hs : p.steps with
  | nil => exact absurd hs h
  | cons step rest => simp [Render.isRootAlias, hs]

/-- an alias of the entity points to no property -/
theorem Knows.below_root {p : Path} (known : s.Knows c p) {name entity : String} (hstart : p.start = some name)
    (hsteps : p.steps = []) (bound : s.aliases.get? name = some (.root entity)) : p.below = [] := by
  obtain ⟨target, -, sound⟩ := known
  obtain ⟨n, hn⟩ := Nat.exists_eq_succ_of_ne_zero (Nat.ne_of_gt (AliasTable.size_pos bound))
  have canonical := sound.canonical
  rw [hn, AliasTable.canonicalWithin_root hstart bound] at canonical
  rw [← Except.ok.inj canonical]
  simp [Path.properties, hsteps]

/-- **Written out, references mean the same**, with a table whose only root alias they start at. -/
theorem rewrites_expanded {t t' : AliasTable} {naming' : Naming}
    (h : (⟨t, some target, []⟩ : Scope).Follows c naming) (h' : (⟨t', some target, []⟩ : Scope).Follows c naming')
    (rooted : (⟨t', some target, []⟩ : Scope).Rooted root target.entity) :
    t.Rewrites c target (naming.rooted root) t' where
  property walks {e p} hp := by
    have follows : (⟨t, some target, walks⟩ : Scope).Follows c naming := ⟨h.sound.of_eq rfl rfl, h.reads⟩
    have follows' : (⟨t', some target, walks⟩ : Scope).Follows c naming' := ⟨h'.sound.of_eq rfl rfl, h'.reads⟩
    have rooted : (⟨t', some target, walks⟩ : Scope).Rooted root target.entity := ⟨rooted.single, rooted.bound⟩
    obtain ⟨known, admitted, hsteps⟩ := resolveProperty_known follows.sound hp
    have takes := admitted.takes known rfl hsteps
    rw [resolveProperty_below follows hp] at takes
    obtain ⟨p', hp'⟩ := resolveProperty_rooted (s := ⟨t', some target, walks⟩) rooted
      ⟨takes.present, takes.selected, takes.tested⟩
    refine ⟨p', hp', ?_⟩
    rw [(resolveProperty_known follows'.sound hp').1.canonicalNames, known.canonicalNames,
      resolveProperty_below follows' hp', resolveProperty_below follows hp]
    exact congrArg Except.ok (follows'.expand_rooted rooted _)
  item {e p} hp := by
    have follows : (⟨t, some target, [.select]⟩ : Scope).Follows c naming := ⟨h.sound.of_eq rfl rfl, h.reads⟩
    have follows' : (⟨t', some target, [.select]⟩ : Scope).Follows c naming' := ⟨h'.sound.of_eq rfl rfl, h'.reads⟩
    have rooted : (⟨t', some target, [.select]⟩ : Scope).Rooted root target.entity := ⟨rooted.single, rooted.bound⟩
    obtain ⟨known, admitted⟩ := resolvePath_known follows.sound hp
    have below := resolvePath_below follows hp
    by_cases hsteps : p.steps = []
    · cases admitted with
      | entity hstart _ bound =>
        rw [known.below_root hstart hsteps bound] at below
        refine ⟨.ofAlias root (.ofEntity target.entity), ?_, ?_⟩
        · rw [Naming.rooted, ← below]
          exact resolvePath_root c rooted
        · have first : Render.isRootAlias t p = true := by simp [Render.isRootAlias, hstart, hsteps, bound]
          have second : Render.isRootAlias t' (.ofAlias root (.ofEntity target.entity)) = true := by
            simp [Render.isRootAlias, Path.ofAlias, rooted.bound]
          rw [Render.projection, Render.projection, first, second]
          rfl
      | object _ _ _ outside => cases outside
      | property steps => exact absurd hsteps steps
    · have takes := admitted.takes known rfl hsteps
      rw [below] at takes
      obtain ⟨p', hp', hsteps'⟩ := resolvePath_rooted (s := ⟨t', some target, [.select]⟩) rooted
        ⟨takes.present, takes.selected, takes.tested⟩
      refine ⟨p', hp', ?_⟩
      have same : t'.canonicalNames p' = t.canonicalNames p := by
        rw [(resolvePath_known follows'.sound hp').1.canonicalNames, known.canonicalNames,
          resolvePath_below follows' hp', below]
        exact congrArg Except.ok (follows'.expand_rooted rooted _)
      rw [Render.projection, Render.projection, isRootAlias_of_steps hsteps, isRootAlias_of_steps hsteps',
        Render.propertyName, Render.propertyName, same]

end Scope

section

variable {c : Catalog} {parameters : Parameters} {q : Statement} {s : ResolvedStatement} {root : String}

/-- the scope behind the sources, without the joins, is rooted at the only root alias -/
theorem sources_rooted (single : s.aliases.rootAliases = [root]) (resolved : q.resolve c parameters = .ok s) :
    ∃ front : Scope, (Scope.initial.enter .sources).addSources c q.sources = .ok front ∧
      front.leave = ⟨front.aliases, some s.target, []⟩ ∧ front.leave.Follows c (q.expanded root).naming ∧
      front.leave.Rooted root s.target.entity := by
  obtain ⟨front, back, steps⟩ := Statement.resolve_iff.1 resolved
  have start : (Scope.initial.enter .sources).Walked c [.sources] [] := ⟨(Scope.initial_follows c).enter _, rfl⟩
  obtain ⟨follows, walks⟩ := Scope.addSources_follows start steps.sources
  obtain ⟨roots, target⟩ := Scope.addJoins_keeps steps.joins
  have haliases : back.aliases = s.aliases := congrArg Scope.aliases steps.scope
  have htarget : back.target = some s.target := congrArg Scope.target steps.scope
  rw [haliases, single] at roots
  rw [htarget] at target
  have scope : front.leave = ⟨front.aliases, some s.target, []⟩ := by
    rw [Scope.leave, walks, ← target]
    rfl
  exact ⟨front, steps.sources, scope, follows.leave, follows.leave.sound.rooted_single target.symm roots.symm⟩

/-- **Aliases and joins are pure abbreviation.** A query with one root alias that resolves and renders does so with
every reference written out and without its joins, and gives an equal result. What the references are written out to is
the canonical path of whatever they resolve to. -/
theorem expanded_renders {Q : Type} {f : Factory Q} {r : QueryResult Q} (single : s.aliases.rootAliases = [root])
    (resolved : q.resolve c parameters = .ok s) (rendered : s.render c f = .ok r) :
    (∃ s', (q.expanded root).resolve c parameters = .ok s' ∧ s'.render c f = .ok r) ∧
      ∀ (walks : List Walk) (e : PathExpr) (p : Path), ({ s.scope with walks } : Scope).resolvePath c e = .ok p →
        s.aliases.canonical p = .ok (q.naming.expand e.segments) := by
  have follows := (Statement.resolve_ok resolved).follows
  constructor
  · obtain ⟨front, sources, scope, follows', rooted⟩ := sources_rooted single resolved
    have mapped : q.Mapped (q.naming.rooted root) (q.expanded root) := ⟨rfl, rfl, rfl, rfl, rfl⟩
    rw [scope] at follows' rooted
    obtain ⟨s', hs', alike⟩ := resolve_rewritten resolved mapped sources rfl scope
      (Scope.rewrites_expanded follows follows' rooted)
    obtain ⟨record, hrecord, rfl⟩ := map_eq_ok.1 ((ResolvedStatement.render_replay c f s).symm.trans rendered)
    refine ⟨s', hs', ?_⟩
    rw [ResolvedStatement.render_replay, render_rewritten resolved hrecord mapped hs' alike fun e =>
      follows'.expand_rooted rooted _]
    rfl
  · intro walks e p hp
    have follows : ({ s.scope with walks } : Scope).Follows c q.naming := ⟨follows.sound.of_eq rfl rfl, follows.reads⟩
    obtain ⟨_, -, sound⟩ := (Scope.resolvePath_known follows.sound hp).1
    rw [← Scope.resolvePath_below follows hp]
    exact sound.canonical

/-- The query of hard hikes, with a join, an alias of it and names without any, and the same query written out. -/
theorem hardHikes_expanded : ∃ s r, hardHikes.resolve hikes [("low", .long 0)] = .ok s ∧
    s.render hikes Trace.factory = .ok r ∧ s.aliases.rootAliases = ["h"] ∧
    ∃ s', (hardHikes.expanded "h").resolve hikes [("low", .long 0)] = .ok s' ∧
      s'.render hikes Trace.factory = .ok r := by
  obtain ⟨r, hr⟩ := exists_of_isOk (show
    (hardHikes.resolve hikes [("low", .long 0)] >>= fun s => s.render hikes Trace.factory).isOk = true
    by decide +kernel)
  obtain ⟨s, hs, hr⟩ := bind_eq_ok.1 hr
  have one : (hardHikes.resolve hikes [("low", .long 0)]).toOption.map (·.aliases.rootAliases) = some ["h"] := by
    decide +kernel
  rw [hs] at one
  have single : s.aliases.rootAliases = ["h"] := Option.some.inj one
  exact ⟨s, r, hs, hr, single, (expanded_renders single hs hr).1⟩

end

end EntitySearch
