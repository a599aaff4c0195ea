/-
Aliases under other names.

A second table of aliases `Renames` a first one when it binds each of its aliases under another name, to what the alias
stands for with the aliases in it renamed as well. It may bind more besides. The front of a reference then means the
same in both if it is an alias in the first and renamed in the second, or free in both (`Front`), and what resolves with
the first table resolves with the second, step by step, to the same path with its alias renamed (`resolvePath_renamed`,
`resolveProperty_renamed`). A path keeps its types and its steps, so nothing of the names is left in what it is.
-/
import EntitySearch.Proofs.Resolve.Refusal

namespace EntitySearch

/-! ## References and paths -/

/-- names of which the first is replaced -/
def mapFirst (f : String → String) : List String → List String
  | [] => []
  | first :: rest => f first :: rest

/-- an index that is a path, with its front replaced -/
def Index.mapFront (f : String → String) : Index → Index
  | .path segments => .path (mapFirst f segments)
  | i => i

/-- a reference with its front replaced, also within its index -/
def PathExpr.mapFront (f : String → String) (e : PathExpr) : PathExpr :=
  ⟨mapFirst f e.segments, e.index.map (Index.mapFront f)⟩

variable (called : String → String)

/-- a path with the alias at its front renamed -/
def Path.renamed (p : Path) : Path := { p with start := p.start.map called }

/-- what an alias stands for, with the alias in it renamed -/
def Binding.renamed : Binding → Binding
  | .root entity => .root entity
  | .join path => .join (path.renamed called)

namespace Path

variable (p : Path)

@[simp] theorem renamed_start : (p.renamed called).start = p.start.map called := rfl

@[simp] theorem renamed_steps : (p.renamed called).steps = p.steps := rfl

@[simp] theorem renamed_below : (p.renamed called).below = p.below := rfl

@[simp] theorem renamed_terminal : (p.renamed called).terminal = p.terminal := rfl

@[simp] theorem renamed_endsInObject : (p.renamed called).endsInObject = p.endsInObject := rfl

@[simp] theorem renamed_push (step : Step) : (p.renamed called).push step = (p.push step).renamed called := rfl

@[simp] theorem renamed_bare (type : ObjectType) : (Path.bare type).renamed called = .bare type := rfl

@[simp] theorem renamed_ofAlias (name : String) (type : ObjectType) :
    (Path.ofAlias name type).renamed called = .ofAlias (called name) type := rfl

end Path

@[simp] theorem Binding.renamed_below (b : Binding) : (b.renamed called).below = b.below := by
  cases b <;> rfl

variable {called}

namespace AliasTable

/-- The aliases of the first table are bound in the second under other names, to the same. -/
structure Renames (called : String → String) (t t' : AliasTable) : Prop where
  bound : ∀ {name b}, t.get? name = some b → t'.get? (called name) = some (b.renamed called)
  roots : t'.rootAliases.length = t.rootAliases.length

/-- the front of a reference, which is an alias in the first table and renamed in the second, or free in both -/
inductive Front (called : String → String) (t t' : AliasTable) : (first first' : String) → Prop where
  | bound {name : String} {b : Binding} (bound : t.get? name = some b) : Front called t t' name (called name)
  | free {name : String} (unbound : t.get? name = none) (unbound' : t'.get? name = none) : Front called t t' name name

theorem isAlias_of_bound {t : AliasTable} {name : String} {b : Binding} (h : t.get? name = some b) :
    t.isAlias name = true := by
  rw [isAlias, h]
  rfl

theorem not_isAlias {t : AliasTable} {name : String} (h : t.get? name = none) : ¬t.isAlias name = true := by
  simp [isAlias, h]

end AliasTable

namespace Scope

variable {c : Catalog} {s : Scope} {t' : AliasTable} {p q : Path} {name first first' : String}

/-- the scope with another table of aliases -/
def under (s : Scope) (t : AliasTable) : Scope := { s with aliases := t }

@[simp] theorem under_aliases (s : Scope) (t : AliasTable) : (s.under t).aliases = t := rfl

@[simp] theorem under_target (s : Scope) (t : AliasTable) : (s.under t).target = s.target := rfl

@[simp] theorem under_inSelect (s : Scope) (t : AliasTable) : (s.under t).inSelect = s.inSelect := rfl

@[simp] theorem under_targetType (s : Scope) (t : AliasTable) : (s.under t).targetType = s.targetType := rfl

/-! ## Step by step -/

theorem checkRoots_renamed (h : s.aliases.Renames called t') : (s.under t').checkRoots = s.checkRoots := by
  simp only [checkRoots, under_aliases, h.roots]

theorem aliasPath_renamed (h : s.aliases.Renames called t') (hp : s.aliasPath name = .ok p) :
    (s.under t').aliasPath (called name) = .ok (p.renamed called) := by
  obtain ⟨⟨⟩, roots, hp⟩ := bind_eq_ok.1 hp
  rw [aliasPath, checkRoots_renamed h, roots, ok_bind, under_aliases]
  split at hp
  · rename_i entity bound
    cases hp
    simp only [h.bound bound, Binding.renamed, Path.renamed_ofAlias]
  · rename_i inner bound
    simp only [h.bound bound, Binding.renamed, Path.renamed_terminal]
    split at hp
    · rename_i type hterminal
      cases hp
      simp only [Path.renamed_ofAlias]
    · cases hp
  · cases hp

theorem stepInto_renamed (hq : stepInto c p name = .ok q) :
    stepInto c (p.renamed called) name = .ok (q.renamed called) := by
  unfold stepInto at hq ⊢
  rw [Path.renamed_terminal]
  split at hq
  · cases hq
  · split at hq
    · cases hq
    · split at hq
      · cases hq
      · cases hq
        simp [*]

theorem descend_renamed {names : List String} (hq : descend c p names = .ok q) :
    descend c (p.renamed called) names = .ok (q.renamed called) := by
  induction names generalizing p with
  | nil =>
    cases hq
    rfl
  | cons name rest ih =>
    obtain ⟨next, hnext, hq⟩ := bind_eq_ok.1 hq
    rw [descend, stepInto_renamed hnext, ok_bind, ih hq]

theorem lastStep_renamed (hq : s.lastStep c p name = .ok q) :
    (s.under t').lastStep c (p.renamed called) name = .ok (q.renamed called) := by
  unfold lastStep at hq ⊢
  rw [Path.renamed_terminal, under_inSelect]
  split at hq
  · cases hq
  · split at hq
    · cases hq
    · split at hq
      · cases hq
        simp [*]
      · split at hq
        · cases hq
        · cases hq
          simp [*]

/-- a front is an alias, or `go` takes it on from the target entity -/
theorem front_renamed (h : s.aliases.Renames called t') (front : s.aliases.Front called t' first first')
    (go : Scope → String → ObjectType → Except QueryError Path)
    (same : ∀ type, go s first type = .ok p → go (s.under t') first type = .ok (p.renamed called))
    (hp : (if s.aliases.isAlias first = true then s.aliasPath first
      else s.checkRoots >>= fun _ => s.targetType >>= go s first) = .ok p) :
    (if t'.isAlias first' = true then (s.under t').aliasPath first'
      else (s.under t').checkRoots >>= fun _ => (s.under t').targetType >>= go (s.under t') first') =
        .ok (p.renamed called) := by
  cases front with
  | bound bound =>
    rw [if_pos (AliasTable.isAlias_of_bound bound)] at hp
    rw [if_pos (AliasTable.isAlias_of_bound (h.bound bound)), aliasPath_renamed h hp]
  | free unbound unbound' =>
    rw [if_neg (AliasTable.not_isAlias unbound)] at hp
    obtain ⟨⟨⟩, roots, hp⟩ := bind_eq_ok.1 hp
    obtain ⟨type, htype, hp⟩ := bind_eq_ok.1 hp
    rw [if_neg (AliasTable.not_isAlias unbound'), checkRoots_renamed h, roots, ok_bind, under_targetType, htype,
      ok_bind, same type hp]

theorem start_renamed (h : s.aliases.Renames called t') (front : s.aliases.Front called t' first first')
    (hp : s.start c first = .ok p) : (s.under t').start c first' = .ok (p.renamed called) := by
  refine front_renamed h front (fun _ first type =>
    if !type.hasProperty c first then .error (.aliasing (.unknown first)) else stepInto c (.bare type) first)
    (fun type hp => ?_) hp
  split at hp
  · cases hp
  · rw [if_neg ‹_›, ← Path.renamed_bare called type]
    exact stepInto_renamed hp

theorem singleName_renamed (h : s.aliases.Renames called t') (front : s.aliases.Front called t' first first')
    (hp : s.singleName c first = .ok p) : (s.under t').singleName c first' = .ok (p.renamed called) := by
  refine front_renamed h front (fun s first type => s.lastStep c (.bare type) first) (fun type hp => ?_) hp
  rw [← Path.renamed_bare called type]
  exact lastStep_renamed hp

/-- the alias at the front of a path is bound -/
def Starts (s : Scope) (p : Path) : Prop := ∀ name, p.start = some name → ∃ b, s.aliases.get? name = some b

/-- paths start at aliases that are bound, or at none -/
theorem starts_closed (c : Catalog) (s : Scope) : s.Closed c s.Starts where
  aliased {name p} hp x hx := by
    obtain ⟨hstart, -, bound⟩ := aliasPath_ok hp
    rw [hstart] at hx
    exact Option.some.inj hx ▸ bound
  bare _ _ hx := nomatch hx
  into {p name q} hp hq := by
    unfold stepInto at hq
    split at hq
    · cases hq
    · split at hq
      · cases hq
      · split at hq
        · cases hq
        · cases hq
          exact hp
  last {p name q} hp hq := by
    unfold lastStep at hq
    split at hq
    · cases hq
    · split at hq
      · cases hq
      · split at hq
        · cases hq
          exact hp
        · split at hq
          · cases hq
          · cases hq
            exact hp

theorem joinBehind_renamed (h : s.aliases.Renames called t') (starts : s.Starts p) :
    (s.under t').joinBehind (p.renamed called) = (s.joinBehind p).map (Path.renamed called) := by
  unfold joinBehind
  cases hstart : p.start with
  | none => simp [hstart]
  | some name =>
    obtain ⟨b, bound⟩ := starts name hstart
    cases hsteps : p.steps with
    | cons step rest => simp [hstart, hsteps]
    | nil => cases b <;> simp [hstart, hsteps, bound, h.bound bound, Binding.renamed]

theorem checkEnd_renamed (h : s.aliases.Renames called t') (starts : s.Starts p) (hq : s.checkEnd p = .ok q) :
    (s.under t').checkEnd (p.renamed called) = .ok (q.renamed called) := by
  obtain ⟨rfl, ends⟩ := checkEnd_ok hq
  unfold checkEnd
  rw [under_inSelect, Path.renamed_endsInObject, joinBehind_renamed h starts]
  cases hs : s.inSelect with
  | false => rfl
  | true =>
    obtain ⟨scalar, none_behind⟩ := ends hs
    simp [scalar, none_behind]

/-! ## References -/

/-- **A reference means the same under other names**, if its front does. -/
theorem resolvePath_renamed (h : s.aliases.Renames called t') {f : String → String} {e : PathExpr}
    (front : ∀ first ∈ e.segments.head?, s.aliases.Front called t' first (f first)) (hq : s.resolvePath c e = .ok q) :
    (s.under t').resolvePath c (e.mapFront f) = .ok (q.renamed called) := by
  obtain ⟨segments, index⟩ := e
  have closed := starts_closed c s
  unfold resolvePath at hq ⊢
  split at hq
  · cases hq
  · rename_i plain
    rw [if_neg (by simpa [PathExpr.mapFront] using plain)]
    rcases segments with _ | ⟨first, _ | ⟨second, rest⟩⟩
    · cases hq
    · obtain ⟨p, hp, hq⟩ := bind_eq_ok.1 hq
      show (s.under t').singleName c (f first) >>= _ = _
      rw [singleName_renamed h (front first rfl) hp, ok_bind]
      exact checkEnd_renamed h (closed.singleName hp) hq
    · simp only [bind_eq_ok] at hq
      obtain ⟨object, hobject, inner, hinner, p, hp, hq⟩ := hq
      show ((s.under t').start c (f first) >>= _) = _
      rw [start_renamed h (front first rfl) hobject, ok_bind, descend_renamed hinner, ok_bind, lastStep_renamed hp,
        ok_bind]
      exact checkEnd_renamed h (closed.last (closed.descend (closed.start hobject) hinner) hp) hq

theorem resolveProperty_renamed (h : s.aliases.Renames called t') {f : String → String} {e : PathExpr}
    (front : ∀ first ∈ e.segments.head?, s.aliases.Front called t' first (f first))
    (hq : s.resolveProperty c e = .ok q) :
    (s.under t').resolveProperty c (e.mapFront f) = .ok (q.renamed called) := by
  obtain ⟨p, hp, hq⟩ := bind_eq_ok.1 hq
  rw [resolveProperty, resolvePath_renamed h front hp, ok_bind]
  split at hq
  · split at hq <;> exact absurd hq bind_error_ne_ok
  · rename_i more
    cases hq
    split
    · rename_i name hstart hsteps
      obtain ⟨name', hname, -⟩ := Option.map_eq_some_iff.1 hstart
      exact absurd hsteps (more name' hname)
    · rfl

end Scope

/-! ## Tables that grow together -/

namespace AliasTable

/-- Two tables after the same declarations, each with an old and a new name: the first binds the old names, the second
renames it, and binds none but new names. -/
structure Redeclares (called : String → String) (decls : List (String × String)) (t t' : AliasTable) : Prop
    extends t.Renames called t' where
  old : ∀ name, (∃ b, t.get? name = some b) ↔ name ∈ decls.map Prod.fst
  new : ∀ name b, t'.get? name = some b → name ∈ decls.map Prod.snd

/-- whatever is declared with the new name has the old one -/
def Reserved (decls : List (String × String)) (name name' : String) : Prop :=
  ∀ other, (other, name') ∈ decls → other = name

theorem Reserved.mono {decls decls' : List (String × String)} {name name' : String} (h : Reserved decls' name name')
    (sub : decls ⊆ decls') : Reserved decls name name' := fun other declared => h other (sub declared)

theorem redeclares_empty (called : String → String) : Redeclares called [] .empty .empty where
  bound h := nomatch h
  roots := rfl
  old _ := ⟨fun ⟨_, h⟩ => (nomatch h), fun h => (nomatch h)⟩
  new _ _ h := nomatch h

theorem rootAliases_add_renamed {t t' : AliasTable} (h : t'.rootAliases.length = t.rootAliases.length)
    (name name' : String) (b : Binding) :
    (t'.add name' (b.renamed called)).rootAliases.length = (t.add name b).rootAliases.length := by
  cases b with
  | root entity => simp only [Binding.renamed, rootAliases_add_root, List.length_append, h, List.length_singleton]
  | join path => rw [Binding.renamed, rootAliases_add_join, rootAliases_add_join, h]

namespace Redeclares

variable {decls : List (String × String)} {t t' t'' : AliasTable} {name name' : String} {b : Binding}

/-- a name that is free in the first table has a new name that is free in the second -/
theorem free (h : Redeclares called decls t t') (reserved : Reserved decls name name') (unbound : t.get? name = none) :
    t'.get? name' = none := by
  refine Option.eq_none_iff_forall_ne_some.2 fun b hb => ?_
  obtain ⟨⟨other, _⟩, declared, rfl⟩ := List.mem_map.1 (h.new name' b hb)
  obtain rfl := reserved other declared
  obtain ⟨b', hb'⟩ := (h.old other).2 (List.mem_map.2 ⟨_, declared, rfl⟩)
  cases unbound.symm.trans hb'

/-- the front of a reference means the same in both tables, if one that is free in the first is so in the second -/
theorem front (h : Redeclares called decls t t') (free : t.get? name = none → t'.get? name = none) :
    t.Front called t' name (if name ∈ decls.map Prod.fst then called name else name) := by
  by_cases known : name ∈ decls.map Prod.fst
  · obtain ⟨b, hb⟩ := (h.old name).2 known
    rw [if_pos known]
    exact .bound hb
  · have unbound : t.get? name = none :=
      Option.eq_none_iff_forall_ne_some.2 fun b hb => known ((h.old name).1 ⟨b, hb⟩)
    rw [if_neg known]
    exact .free unbound (free unbound)

/-- a free name is bound in both tables -/
theorem add (h : Redeclares called decls t t') (reserved : Reserved decls name (called name))
    (unbound : t.get? name = none) (b : Binding) :
    Redeclares called (decls ++ [(name, called name)]) (t.add name b) (t'.add (called name) (b.renamed called)) where
  bound {x b'} hb := by
    rcases get?_add_eq hb with hb | ⟨rfl, rfl⟩
    · exact (add_extends ..).get? (h.bound hb)
    · exact get?_add_self (h.free reserved unbound) _
  roots := rootAliases_add_renamed h.roots name (called name) b
  old x := by
    rw [List.map_append, List.mem_append, ← h.old x, List.map_singleton, List.mem_singleton, get?_add]
    cases t.get? x with
    | some _ => simp
    | none => by_cases hx : x = name <;> simp [hx]
  new x b' hb := by
    rw [List.map_append, List.mem_append]
    rcases get?_add_eq hb with hb | ⟨rfl, -⟩
    · exact .inl (h.new x b' hb)
    · exact .inr (List.mem_singleton_self _)

/-- A name that is bound keeps its meaning in the first table. The second may bind its new name, if that is free. -/
theorem keep (h : Redeclares called decls t t') (bound : t.get? name = some b) (grows : t'.Extends t'')
    (roots : t''.rootAliases = t'.rootAliases)
    (more : ∀ x b', t''.get? x = some b' → t'.get? x = some b' ∨ x = name') :
    Redeclares called (decls ++ [(name, name')]) t t'' where
  bound hb := grows.get? (h.bound hb)
  roots := by rw [roots, h.roots]
  old x := by
    rw [List.map_append, List.mem_append, ← h.old x, List.map_singleton, List.mem_singleton]
    exact ⟨.inl, fun known => known.elim id fun hx => ⟨b, hx ▸ bound⟩⟩
  new x b' hb := by
    rw [List.map_append, List.mem_append]
    rcases more x b' hb with hb | rfl
    · exact .inl (h.new x b' hb)
    · exact .inr (List.mem_singleton_self _)

/-- a root alias that is bound in the first table is bound in the second, under its new name -/
theorem bindRoot (h : Redeclares called decls t t') (reserved : Reserved decls name (called name)) {entity : String}
    {t₁ : AliasTable} (hb : t.bindRoot name entity = .ok t₁) :
    ∃ t₁', t'.bindRoot (called name) entity = .ok t₁' ∧
      Redeclares called (decls ++ [(name, called name)]) t₁ t₁' := by
  rcases bindRoot_cases hb with ⟨unbound, rfl⟩ | ⟨bound, rfl⟩
  · refine ⟨_, ?_, h.add reserved unbound (.root entity)⟩
    rw [bindRoot_eq_ok, registerRoot, h.free reserved unbound]
    rfl
  · refine ⟨t', ?_, h.keep bound (.refl t') rfl fun _ _ => .inl⟩
    rw [bindRoot_eq_ok, registerRoot, h.bound bound]
    simp [Binding.renamed]

/-- A join alias is bound in both tables under a free name. Under a name that is bound already the first table stays as
it is, and what the second binds is never asked for. -/
theorem bindJoin (h : Redeclares called decls t t') (reserved : Reserved decls name name')
    (named : t.get? name = none → name' = called name) (path : Path) :
    Redeclares called (decls ++ [(name, name')]) (t.bindJoin name path).2
      (t'.bindJoin name' (path.renamed called)).2 := by
  cases hb : t.get? name with
  | none =>
    obtain rfl := named hb
    have free := h.free reserved hb
    rw [AliasTable.bindJoin, if_neg (not_isAlias hb), AliasTable.bindJoin, if_neg (not_isAlias free)]
    exact h.add reserved hb (.join path)
  | some b =>
    rw [AliasTable.bindJoin, if_pos (isAlias_of_bound hb)]
    refine h.keep hb (bindJoin_extends ..) ?_ fun x b' hb' => ?_
    · unfold AliasTable.bindJoin
      split
      · rfl
      · exact rootAliases_add_join ..
    · unfold AliasTable.bindJoin at hb'
      split at hb'
      · exact .inl hb'
      · exact (get?_add_eq hb').imp id And.left

end Redeclares

end AliasTable

end EntitySearch
