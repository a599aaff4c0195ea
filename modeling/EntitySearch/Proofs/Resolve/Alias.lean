/-
Tables of aliases that grow, and canonical names in them.

What a table does with a root alias is told once, by `registerRoot_cases`: it binds a free name, has the alias already,
or turns it down and stays as it was.

A table `Extends` another when it keeps every binding of it and is no smaller. Binding a root alias or a join alias
extends a table (`bindRoot_extends`, `bindJoin_extends`), and what is canonical in a table stays so in every table that
extends it, with at least as many aliases to be replaced (`canonicalWithin_mono`). So a path that was canonical when a
join bound it is canonical ever after, with one alias less than there are in the table.
-/
import EntitySearch.Resolve.Alias
import EntitySearch.Proofs.Lookup
import EntitySearch.Proofs.Outcome

namespace EntitySearch

namespace Path

/-- the names of a path below the target entity, from where its root stands -/
def below (p : Path) : List String := p.root.path ++ p.properties

@[simp] theorem properties_push (p : Path) (step : Step) : (p.push step).properties = p.properties ++ [step.name] := by
  simp [properties, push]

@[simp] theorem below_push (p : Path) (step : Step) : (p.push step).below = p.below ++ [step.name] := by
  simp only [below, properties_push]
  exact (List.append_assoc ..).symm

end Path

/-- an entity's name, or the names of a path -/
def Binding.text : Binding → String
  | .root entity => entity
  | .join path => path.text

namespace AliasTable

@[simp] theorem bindings_add (t : AliasTable) (name : String) (b : Binding) :
    (t.add name b).bindings = t.bindings ++ [(name, b)] := by
  cases b <;> rfl

/-! ## Root aliases -/

theorem rootAliases_add_root (t : AliasTable) (name entity : String) :
    (t.add name (.root entity)).rootAliases = t.rootAliases ++ [name] := rfl

theorem rootAliases_add_join (t : AliasTable) (name : String) (path : Path) :
    (t.add name (.join path)).rootAliases = t.rootAliases := rfl

theorem mem_rootAliases {t : AliasTable} {name entity : String} (h : t.get? name = some (.root entity)) :
    name ∈ t.rootAliases := by
  obtain ⟨before, after, hb, -⟩ := List.lookup_eq_some_iff.1 h
  simp [t.exact, rootsOf, hb]

/-- **What becomes of a root alias**: its name is free and is bound, or stands for the entity already, or stands for
something else, and then the alias is turned down. -/
theorem registerRoot_cases (t : AliasTable) (name entity : String) :
    (t.get? name = none ∧ t.registerRoot name entity = (.ok (), t.add name (.root entity))) ∨
    (t.get? name = some (.root entity) ∧ t.registerRoot name entity = (.ok (), t)) ∨
    ∃ b, t.get? name = some b ∧ b ≠ .root entity ∧
      t.registerRoot name entity = (.error (.conflict name b.text entity), t) := by
  unfold registerRoot
  cases t.get? name with
  | none => exact .inl ⟨rfl, rfl⟩
  | some b =>
    cases b with
    | root existing =>
      by_cases same : existing = entity
      · exact .inr (.inl ⟨by rw [same], by simp [same]⟩)
      · exact .inr (.inr ⟨_, rfl, by simpa using same, by simp [same, Binding.text]⟩)
    | join path => exact .inr (.inr ⟨_, rfl, nofun, rfl⟩)

section

variable {t t' : AliasTable} {name entity : String}

theorem bindRoot_eq_ok : t.bindRoot name entity = .ok t' ↔ t.registerRoot name entity = (.ok (), t') := by
  unfold bindRoot
  rcases t.registerRoot name entity with ⟨_ | _, _⟩ <;> simp

/-- a root alias is bound to a free name, or is there already -/
theorem bindRoot_cases (h : t.bindRoot name entity = .ok t') :
    t.get? name = none ∧ t' = t.add name (.root entity) ∨ t.get? name = some (.root entity) ∧ t' = t := by
  have registered := bindRoot_eq_ok.1 h
  rcases t.registerRoot_cases name entity with ⟨free, fresh⟩ | ⟨bound, again⟩ | ⟨b, -, -, refused⟩
  · cases fresh.symm.trans registered
    exact .inl ⟨free, rfl⟩
  · cases again.symm.trans registered
    exact .inr ⟨bound, rfl⟩
  · cases refused.symm.trans registered

/-- a root alias that is turned down leaves the table as it was -/
theorem registerRoot_refused {e : AliasError} (h : t.registerRoot name entity = (.error e, t')) : t' = t := by
  rcases t.registerRoot_cases name entity with ⟨-, fresh⟩ | ⟨-, again⟩ | ⟨b, -, -, refused⟩
  · cases fresh.symm.trans h
  · cases again.symm.trans h
  · cases refused.symm.trans h
    rfl

end

/-! ## Tables that grow -/

/-- every binding is kept -/
structure Extends (t t' : AliasTable) : Prop where
  get? : ∀ {name b}, t.get? name = some b → t'.get? name = some b
  size : t.size ≤ t'.size

theorem Extends.refl (t : AliasTable) : t.Extends t := ⟨id, Nat.le_refl _⟩

theorem get?_add (t : AliasTable) (name : String) (b : Binding) (x : String) :
    (t.add name b).get? x = (t.get? x).or (if x = name then some b else none) := by
  rw [get?, bindings_add, lookup_snoc, get?]

theorem get?_add_self {t : AliasTable} {name : String} (fresh : t.get? name = none) (b : Binding) :
    (t.add name b).get? name = some b := by
  simp [get?_add, fresh]

/-- what a larger table binds was bound before, or is the new binding -/
theorem get?_add_eq {t : AliasTable} {name x : String} {b b' : Binding} (h : (t.add name b).get? x = some b') :
    t.get? x = some b' ∨ x = name ∧ b = b' := by
  rw [get?_add] at h
  cases hx : t.get? x with
  | some b'' =>
    rw [hx] at h
    exact .inl h
  | none =>
    rw [hx, Option.none_or] at h
    split at h
    · exact .inr ⟨‹_›, Option.some.inj h⟩
    · cases h

theorem size_add (t : AliasTable) (name : String) (b : Binding) : (t.add name b).size = t.size + 1 := by
  simp [size]

theorem add_extends (t : AliasTable) (name : String) (b : Binding) : t.Extends (t.add name b) where
  get? h := by rw [get?_add, h, Option.some_or]
  size := by rw [size_add]; omega

theorem bindRoot_extends {t t' : AliasTable} {name entity : String} (h : t.bindRoot name entity = .ok t') :
    t.Extends t' := by
  rcases bindRoot_cases h with ⟨-, rfl⟩ | ⟨-, rfl⟩
  · exact add_extends ..
  · exact .refl t'

theorem bindJoin_extends (t : AliasTable) (name : String) (path : Path) : t.Extends (t.bindJoin name path).2 := by
  unfold bindJoin
  split
  · exact .refl t
  · exact add_extends t name (.join path)

theorem size_pos {t : AliasTable} {name : String} {b : Binding} (h : t.get? name = some b) : 0 < t.size := by
  unfold get? at h
  cases hb : t.bindings with
  | nil => rw [hb] at h; cases h
  | cons _ _ => simp [size, hb]

/-! ## Canonical names -/

section

variable {t : AliasTable} {n : Nat} {p : Path} {name : String}

theorem canonicalWithin_bare (h : p.start = none) : t.canonicalWithin n p = .ok p.properties := by
  unfold canonicalWithin
  rw [h]

theorem canonicalWithin_zero (h : p.start = some name) : t.canonicalWithin 0 p = .error (.unknown name) := by
  unfold canonicalWithin
  rw [h]

theorem canonicalWithin_unbound (h : p.start = some name) (hb : t.get? name = none) :
    t.canonicalWithin n p = .error (.unknown name) := by
  unfold canonicalWithin
  rw [h]
  cases n <;> simp only [hb]

theorem canonicalWithin_root {entity : String} (h : p.start = some name) (hb : t.get? name = some (.root entity)) :
    t.canonicalWithin (n + 1) p = .ok p.properties := by
  rw [canonicalWithin, h]
  simp only [hb]

theorem canonicalWithin_join {inner : Path} (h : p.start = some name) (hb : t.get? name = some (.join inner)) :
    t.canonicalWithin (n + 1) p = (t.canonicalWithin n inner).map (· ++ p.properties) := by
  rw [canonicalWithin, h]
  simp only [hb]

end

/-- what is canonical in a table is so in every larger one, with more aliases to be replaced -/
theorem canonicalWithin_mono {t t' : AliasTable} (h : t.Extends t') {n m : Nat} (hn : n ≤ m) {p : Path}
    {names : List String} (hp : t.canonicalWithin n p = .ok names) : t'.canonicalWithin m p = .ok names := by
  induction n generalizing m p names with
  | zero =>
    cases hs : p.start with
    | none => rwa [canonicalWithin_bare hs] at hp ⊢
    | some name => rw [canonicalWithin_zero hs] at hp; cases hp
  | succ n ih =>
    obtain ⟨m, rfl⟩ : ∃ k, m = k + 1 := ⟨m - 1, by omega⟩
    cases hs : p.start with
    | none => rwa [canonicalWithin_bare hs] at hp ⊢
    | some name =>
      cases hb : t.get? name with
      | none => rw [canonicalWithin_unbound hs hb] at hp; cases hp
      | some b =>
        cases b with
        | root entity => rwa [canonicalWithin_root hs hb, ← canonicalWithin_root hs (h.get? hb)] at hp
        | join inner =>
          rw [canonicalWithin_join hs hb] at hp
          obtain ⟨front, hfront, rfl⟩ := map_eq_ok.1 hp
          rw [canonicalWithin_join hs (h.get? hb), ih (by omega) hfront]
          rfl

/-- a step more at the end of a path is a name more at the end of its canonical names -/
theorem canonicalWithin_push {t : AliasTable} {n : Nat} {p : Path} {names : List String} (step : Step)
    (h : t.canonicalWithin n p = .ok names) : t.canonicalWithin n (p.push step) = .ok (names ++ [step.name]) := by
  have hs : (p.push step).start = p.start := rfl
  cases hp : p.start with
  | none =>
    rw [canonicalWithin_bare hp] at h
    cases h
    rw [canonicalWithin_bare (hs.trans hp), Path.properties_push]
  | some name =>
    cases n with
    | zero => rw [canonicalWithin_zero hp] at h; cases h
    | succ n =>
      cases hb : t.get? name with
      | none => rw [canonicalWithin_unbound hp hb] at h; cases h
      | some b =>
        cases b with
        | root entity =>
          rw [canonicalWithin_root hp hb] at h
          cases h
          rw [canonicalWithin_root (hs.trans hp) hb, Path.properties_push]
        | join inner =>
          rw [canonicalWithin_join hp hb] at h
          obtain ⟨front, hfront, rfl⟩ := map_eq_ok.1 h
          rw [canonicalWithin_join (hs.trans hp) hb, hfront, Path.properties_push]
          simp [Except.map]

end AliasTable

end EntitySearch
