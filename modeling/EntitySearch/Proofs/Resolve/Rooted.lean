/-
References that start at a root alias.

In a scope with a single root alias, a reference of that alias and the names of a property leads to the property,
whenever the clause being walked takes its kind (`resolvePath_rooted`, `resolveProperty_rooted`). The alias alone is the
entity, in every clause (`resolvePath_root`).
-/
import EntitySearch.Proofs.Catalog.Nesting
import EntitySearch.Proofs.Resolve.Statement

namespace EntitySearch

namespace Scope

variable {c : Catalog} {s : Scope} {root entity : String}

/-- the name is the only root alias, and stands for the entity -/
structure Rooted (s : Scope) (root entity : String) : Prop where
  single : s.aliases.rootAliases.length ≤ 1
  bound : s.aliases.get? root = some (.root entity)

/-- a sound scope with one root alias is rooted at it -/
theorem Sound.rooted_single (h : s.Sound c) {target : Target} (ht : s.target = some target)
    (single : s.aliases.rootAliases = [root]) : s.Rooted root target.entity := by
  obtain ⟨name, hname⟩ := h.rooted target ht
  have same : name = root := by simpa [single] using AliasTable.mem_rootAliases hname
  exact ⟨by simp [single], same ▸ hname⟩

theorem Rooted.aliasPath (h : s.Rooted root entity) : s.aliasPath root = .ok (.ofAlias root (.ofEntity entity)) := by
  have roots : s.checkRoots = .ok () := by
    rw [checkRoots, if_neg (Nat.not_lt.2 h.single)]
  rw [Scope.aliasPath, roots, ok_bind, h.bound]

theorem Rooted.isAlias (h : s.Rooted root entity) : s.aliases.isAlias root = true := by
  rw [AliasTable.isAlias, h.bound]
  rfl

/-! ## Steps along a property -/

variable {p : Path} {front : List String}

theorem stepInto_succeeds {name : String} (ht : p.terminal = some ⟨entity, front⟩)
    (he : c.isEmbedded entity (front ++ [name]) = true) :
    stepInto c p name = .ok (p.push ⟨name, some ⟨entity, front ++ [name]⟩⟩) := by
  have present : ObjectType.hasProperty c ⟨entity, front⟩ name = true := Path.hasProperty_of_isEmbedded he
  have embedded : ObjectType.isEmbedded c ⟨entity, front⟩ name = true := he
  simp only [stepInto, ht, present, embedded, Bool.not_true, Bool.false_eq_true, if_false]
  rfl

theorem terminal_push (p : Path) (step : Step) : (p.push step).terminal = step.type := by
  simp [Path.terminal, Path.push]

/-- steps along the names of a property that goes on behind them -/
theorem descend_succeeds {names rest : List String} (ht : p.terminal = some ⟨entity, front⟩) (hr : rest ≠ [])
    (present : c.hasProperty entity (front ++ names ++ rest) = true) :
    ∃ q, descend c p names = .ok q ∧ q.terminal = some ⟨entity, front ++ names⟩ := by
  induction names generalizing p front with
  | nil => exact ⟨p, rfl, by simpa using ht⟩
  | cons name names ih =>
    have along : front ++ name :: names ++ rest = front ++ [name] ++ (names ++ rest) := by simp
    rw [along] at present
    have embedded := Catalog.isEmbedded_of_hasProperty (by simp) (by simp [hr]) present
    have behind : (p.push ⟨name, some ⟨entity, front ++ [name]⟩⟩).terminal = some ⟨entity, front ++ [name]⟩ :=
      terminal_push ..
    obtain ⟨q, hq, hterminal⟩ := ih behind (by rwa [List.append_assoc _ names rest])
    refine ⟨q, ?_, by simpa using hterminal⟩
    rw [descend, stepInto_succeeds ht embedded, ok_bind, hq]

/-- the kinds of property that the clause being walked takes -/
structure Takes (c : Catalog) (s : Scope) (entity : String) (names : List String) : Prop where
  present : c.hasProperty entity names = true
  selected : s.inSelect = true → c.isEmbedded entity names = false
  tested : s.inSelect = false → c.Plain entity names

/-- the last step to a property, which the clause being walked takes -/
theorem lastStep_succeeds {name : String} (ht : p.terminal = some ⟨entity, front⟩)
    (takes : s.Takes c entity (front ++ [name])) :
    ∃ q, s.lastStep c p name = .ok q ∧ q.steps ≠ [] ∧ (s.inSelect = true → q.endsInObject = false) := by
  have present : ObjectType.hasProperty c ⟨entity, front⟩ name = true := takes.present
  have same : ObjectType.isEmbedded c ⟨entity, front⟩ name = c.isEmbedded entity (front ++ [name]) := rfl
  simp only [lastStep, ht, present, Bool.not_true, Bool.false_eq_true, if_false]
  cases he : c.isEmbedded entity (front ++ [name]) with
  | true =>
    rw [he] at same
    simp only [same, if_true]
    refine ⟨_, rfl, by simp [Path.push], fun hs => ?_⟩
    rw [takes.selected hs] at he
    cases he
  | false =>
    rw [he] at same
    have plain : (!s.inSelect && ObjectType.isAnalyzed c ⟨entity, front⟩ name) = false := by
      cases hs : s.inSelect with
      | true => rfl
      | false =>
        cases ha : c.isAnalyzed entity (front ++ [name]) with
        | true => rw [Catalog.plain_iff.1 (takes.tested hs) ha] at he; cases he
        | false => exact ha
    simp only [same, plain, Bool.false_eq_true, if_false]
    exact ⟨_, rfl, by simp [Path.push], fun _ => by simp [Path.endsInObject, Path.push]⟩

theorem checkEnd_succeeds {q : Path} (hsteps : q.steps ≠ []) (ends : s.inSelect = true → q.endsInObject = false) :
    s.checkEnd q = .ok q := by
  have none_behind : s.joinBehind q = none := by
    cases hn : q.steps with
    | nil => exact absurd hn hsteps
    | cons step rest => simp [joinBehind, hn]
  unfold checkEnd
  cases hs : s.inSelect with
  | false => rfl
  | true => simp [ends hs, none_behind]

/-! ## References from the root -/

/-- the walk of a reference from the root alias: into objects, the last step, and the kinds that the clause takes -/
theorem resolvePath_steps (rooted : s.Rooted root entity) (c : Catalog) (front : List String) (name : String) :
    s.resolvePath c ⟨root :: (front ++ [name]), none⟩ =
      (descend c (.ofAlias root (.ofEntity entity)) front >>= fun p => s.lastStep c p name >>= s.checkEnd) := by
  obtain ⟨second, rest, along⟩ : ∃ second rest, front ++ [name] = second :: rest := by
    cases front <;> exact ⟨_, _, rfl⟩
  have start : s.start c root = .ok (.ofAlias root (.ofEntity entity)) := by
    rw [Scope.start, if_pos rooted.isAlias, rooted.aliasPath]
  have inner : (second :: rest).dropLast = front := by rw [← along, List.dropLast_concat]
  have last : (second :: rest).getLast (by simp) = name := by simp only [← along, List.getLast_concat]
  simp only [along, resolvePath, Option.isSome_none, Bool.false_eq_true, if_false, start, ok_bind, inner, last]

/-- **A reference from the root alias leads to its property**, if the clause being walked takes it. -/
theorem resolvePath_rooted (rooted : s.Rooted root entity) {names : List String} (takes : s.Takes c entity names) :
    ∃ q, s.resolvePath c ⟨root :: names, none⟩ = .ok q ∧ q.steps ≠ [] := by
  have some_name : names ≠ [] := fun none_given => by
    have present := takes.present
    rw [none_given, Catalog.hasProperty_nil] at present
    cases present
  obtain ⟨inner, last, rfl⟩ : ∃ inner last, names = inner ++ [last] :=
    ⟨_, _, (List.dropLast_append_getLast some_name).symm⟩
  have whole : (Path.ofAlias root (.ofEntity entity)).terminal = some ⟨entity, []⟩ := rfl
  obtain ⟨p, hp, hterminal⟩ := descend_succeeds whole (List.cons_ne_nil last []) takes.present
  obtain ⟨q, hq, hsteps, ends⟩ := lastStep_succeeds hterminal takes
  exact ⟨q, by rw [resolvePath_steps rooted, hp, ok_bind, hq, ok_bind, checkEnd_succeeds hsteps ends], hsteps⟩

theorem resolveProperty_rooted (rooted : s.Rooted root entity) {names : List String} (takes : s.Takes c entity names) :
    ∃ q, s.resolveProperty c ⟨root :: names, none⟩ = .ok q := by
  obtain ⟨q, hq, hsteps⟩ := resolvePath_rooted rooted takes
  refine ⟨q, ?_⟩
  rw [resolveProperty, hq, ok_bind]
  split
  · exact absurd ‹_› hsteps
  · rfl

/-- the root alias alone is the entity -/
theorem resolvePath_root (c : Catalog) (rooted : s.Rooted root entity) :
    s.resolvePath c ⟨[root], none⟩ = .ok (.ofAlias root (.ofEntity entity)) := by
  have none_behind : s.joinBehind (.ofAlias root (.ofEntity entity)) = none := by
    simp [joinBehind, Path.ofAlias, rooted.bound]
  simp only [resolvePath, Option.isSome_none, Bool.false_eq_true, if_false, singleName, rooted.isAlias, if_true,
    rooted.aliasPath, ok_bind]
  unfold checkEnd
  rw [none_behind]
  cases s.inSelect <;> rfl

end Scope

end EntitySearch
