/-
What the names in a query stand for, read off the query alone.

A source of the FROM clause stands for the target entity, so what follows its name is a property of the entity; the
alias of a join stands for the path joined, which may start at an alias before it. `Statement.naming` lists the aliases
with the canonical paths that they stand for, and `Naming.expand` puts such a path in place of the alias at the front of
a reference. A scope `Follows` a naming when it is sound and its table says the same: sources and joins keep it so, and
`resolvePath_below` then says that a resolved path lies where its reference points.
-/
import EntitySearch.Proofs.Resolve.Scope
import EntitySearch.Resolve.Statement

namespace EntitySearch

/-- aliases, and the canonical paths that they stand for -/
abbrev Naming := List (String × List String)

namespace Naming

/-- one name more; a name that stands for something already keeps its meaning -/
def add (naming : Naming) (name : String) (path : List String) : Naming := naming ++ [(name, path)]

/-- the canonical path to which a reference points -/
def expand (naming : Naming) : List String → List String
  | [] => []
  | first :: rest => (naming.lookup first).getD [first] ++ rest

theorem expand_cons (naming : Naming) (first : String) (rest : List String) :
    naming.expand (first :: rest) = naming.expand [first] ++ rest := by
  simp [expand]

end Naming

/-- what the aliases of a query stand for -/
def Statement.naming (q : Statement) : Naming :=
  q.joins.foldl (fun naming join => naming.add join.name (naming.expand join.path.segments))
    (q.sources.foldl (fun naming source => naming.add source.reference []) [])

/-- hikes and the places where they start -/
def hikes : Catalog where
  entities := [⟨"Hike", none, [("description", ⟨.string, true, []⟩), ("difficulty", ⟨.long, false, []⟩),
    ("start", ⟨.embedded, false, [("altitude", ⟨.long, false, []⟩)]⟩)]⟩]
  sound := by decide +kernel

/-- hard hikes, by the altitude at which they start -/
def hardHikes : Statement where
  select := some ⟨true, [.path ⟨["s", "altitude"], none⟩, .aggregate ⟨.count, true, ⟨["h", "difficulty"], none⟩⟩]⟩
  sources := [⟨"Hike", some "h"⟩]
  joins := [⟨true, false, ⟨["h", "start"], none⟩, "s"⟩]
  filter := some (.and [.compare .less (.literal (.number "3")) (.path ⟨["difficulty"], none⟩),
    .not (.among (.path ⟨["s", "altitude"], none⟩) [.named "low", .literal (.number "-5")] true)])
  groupBy := some [⟨["s", "altitude"], none⟩]
  having := some
    (.compare .greaterOrEqual (.aggregate ⟨.avg, false, ⟨["difficulty"], none⟩⟩) (.literal (.number "2.5")))
  orderBy := some [⟨⟨["start", "altitude"], none⟩, false⟩]

example : hardHikes.naming = [("h", []), ("s", ["start"])] := by decide

/-- the canonical path of what a binding binds -/
def Binding.below : Binding → List String
  | .root _ => []
  | .join path => path.below

namespace Scope

variable {c : Catalog} {s s' : Scope} {naming : Naming}

/-- an alias table says what a naming does -/
def Reads (naming : Naming) (t : AliasTable) : Prop := ∀ name, naming.lookup name = (t.get? name).map (·.below)

/-- The scope is sound, and its aliases are those of a naming. -/
structure Follows (c : Catalog) (naming : Naming) (s : Scope) : Prop where
  sound : s.Sound c
  reads : Reads naming s.aliases

theorem initial_follows (c : Catalog) : initial.Follows c [] := ⟨initial_sound c, fun _ => rfl⟩

theorem Follows.enter (h : s.Follows c naming) (w : Walk) : (s.enter w).Follows c naming := ⟨h.sound.enter w, h.reads⟩

theorem Follows.leave (h : s.Follows c naming) : s.leave.Follows c naming := ⟨h.sound.leave, h.reads⟩

/-! ## Paths lie where references point -/

variable {p q : Path} {name : String}

theorem aliasPath_below (h : s.Follows c naming) (hp : s.aliasPath name = .ok p) :
    naming.lookup name = some p.below := by
  simp only [aliasPath, bind_eq_ok] at hp
  obtain ⟨⟨⟩, -, hp⟩ := hp
  rw [h.reads name]
  split at hp
  · rename_i hb
    cases hp
    rw [hb]
    rfl
  · rename_i inner hb
    split at hp
    · rename_i hterminal
      cases hp
      obtain ⟨target, n, -, -, sound⟩ := h.sound.join name inner hb
      rw [hb, (sound.terminal hterminal).1]
      simp [Binding.below, Path.below, Path.ofAlias, Path.properties]
    · cases hp
  · cases hp

theorem stepInto_below (hq : stepInto c p name = .ok q) : q.below = p.below ++ [name] := by
  unfold stepInto at hq
  split at hq
  · cases hq
  · split at hq
    · cases hq
    · split at hq
      · cases hq
      · cases hq
        exact Path.below_push ..

theorem lastStep_below (hq : s.lastStep c p name = .ok q) : q.below = p.below ++ [name] := by
  unfold lastStep at hq
  split at hq
  · cases hq
  · split at hq
    · cases hq
    · split at hq
      · cases hq
        exact Path.below_push ..
      · split at hq
        · cases hq
        · cases hq
          exact Path.below_push ..

theorem descend_below {names : List String} (hq : descend c p names = .ok q) : q.below = p.below ++ names := by
  induction names generalizing p with
  | nil =>
    cases hq
    exact (List.append_nil _).symm
  | cons name rest ih =>
    simp only [descend, bind_eq_ok] at hq
    obtain ⟨next, hnext, hq⟩ := hq
    rw [ih hq, stepInto_below hnext, List.append_assoc]
    rfl

/-- a name that is no alias points to a property of the target entity -/
theorem expand_of_not_isAlias (h : s.Follows c naming) (hn : ¬ s.aliases.isAlias name = true) :
    naming.expand [name] = [name] := by
  simp only [AliasTable.isAlias, Option.not_isSome_iff_eq_none] at hn
  simp [Naming.expand, h.reads name, hn]

theorem expand_of_aliasPath (h : s.Follows c naming) (hp : s.aliasPath name = .ok p) :
    naming.expand [name] = p.below := by
  simp [Naming.expand, aliasPath_below h hp]

theorem start_below (h : s.Follows c naming) (hp : s.start c name = .ok p) : p.below = naming.expand [name] := by
  unfold start at hp
  split at hp
  · exact (expand_of_aliasPath h hp).symm
  · rename_i hn
    simp only [bind_eq_ok] at hp
    obtain ⟨⟨⟩, -, type, htype, hp⟩ := hp
    obtain ⟨target, -, rfl⟩ := targetType_ok htype
    split at hp
    · cases hp
    · rw [expand_of_not_isAlias h hn, stepInto_below hp]
      rfl

theorem singleName_below (h : s.Follows c naming) (hp : s.singleName c name = .ok p) :
    p.below = naming.expand [name] := by
  unfold singleName at hp
  split at hp
  · exact (expand_of_aliasPath h hp).symm
  · rename_i hn
    simp only [bind_eq_ok] at hp
    obtain ⟨⟨⟩, -, type, htype, hp⟩ := hp
    obtain ⟨target, -, rfl⟩ := targetType_ok htype
    rw [expand_of_not_isAlias h hn, lastStep_below hp]
    rfl

/-- **A path lies where its reference points**, be it written with the alias of a source, with that of a join, or with
none. -/
theorem resolvePath_below (h : s.Follows c naming) {e : PathExpr} (hq : s.resolvePath c e = .ok q) :
    q.below = naming.expand e.segments := by
  unfold resolvePath at hq
  split at hq
  · cases hq
  · split at hq
    · cases hq
    · rename_i hsegments
      obtain ⟨p, hp, hq⟩ := bind_eq_ok.1 hq
      rw [(checkEnd_ok hq).1, singleName_below h hp, hsegments]
    · rename_i first second rest hsegments
      simp only [bind_eq_ok] at hq
      obtain ⟨front, hfront, inner, hinner, p, hp, hq⟩ := hq
      rw [(checkEnd_ok hq).1, lastStep_below hp, descend_below hinner, start_below h hfront, hsegments,
        List.append_assoc, List.dropLast_append_getLast, ← Naming.expand_cons]

theorem resolveProperty_below (h : s.Follows c naming) {e : PathExpr} (hq : s.resolveProperty c e = .ok q) :
    q.below = naming.expand e.segments := by
  obtain ⟨p, hp, hq⟩ := bind_eq_ok.1 hq
  split at hq
  · split at hq <;> exact absurd hq bind_error_ne_ok
  · cases hq
    exact resolvePath_below h hp

/-! ## Sources and joins -/

variable {t t' : AliasTable}

theorem reads_add (h : Reads naming t) (name : String) (b : Binding) :
    Reads (naming.add name b.below) (t.add name b) := by
  intro x
  rw [Naming.add, lookup_snoc, AliasTable.get?_add, h]
  cases t.get? x with
  | some _ => rfl
  | none => by_cases hx : x = name <;> simp [hx]

/-- a name bound already keeps its meaning -/
theorem reads_bound (h : Reads naming t) {b : Binding} (hb : t.get? name = some b) (path : List String) :
    Reads (naming.add name path) t := by
  intro x
  rw [Naming.add, lookup_snoc, h]
  by_cases hx : x = name
  · simp [hx, hb]
  · simp [hx]

theorem reads_bindRoot (h : Reads naming t) {entity : String} (hb : t.bindRoot name entity = .ok t') :
    Reads (naming.add name []) t' := by
  rcases AliasTable.bindRoot_cases hb with ⟨-, rfl⟩ | ⟨bound, rfl⟩
  · exact reads_add h name (.root entity)
  · exact reads_bound h bound []

theorem reads_bindJoin (h : Reads naming t) (name : String) (path : Path) :
    Reads (naming.add name path.below) (t.bindJoin name path).2 := by
  unfold AliasTable.bindJoin
  split
  · rename_i bound
    obtain ⟨b, hb⟩ := Option.isSome_iff_exists.1 bound
    exact reads_bound h hb _
  · exact reads_add h name (.join path)

theorem succeeded_ok {x : Except QueryError Unit × Scope} (h : succeeded x = .ok s') : x = (.ok (), s') := by
  rcases x with ⟨_ | ⟨⟩, s⟩ <;> cases h
  rfl

theorem addSource_reads (h : Reads naming s.aliases) {calledBy : String} {name : Option String}
    (hs : s.addSource c calledBy name = (.ok (), s')) :
    Reads (naming.add (name.getD calledBy) []) s'.aliases ∧ s'.walks = s.walks := by
  have step := s.addSource_step c calledBy name
  rw [hs] at step
  cases step with
  | first _ bound _ => exact ⟨reads_bindRoot h bound, rfl⟩
  | again _ bound _ => exact ⟨reads_bindRoot h bound, rfl⟩

theorem addJoin_reads (h : Reads naming s.aliases) {path : Path} (hs : s.addJoin name path = (.ok (), s')) :
    Reads (naming.add name path.below) s'.aliases ∧ s'.walks = s.walks := by
  unfold addJoin at hs
  split at hs
  · cases hs
    exact ⟨reads_bindJoin h name path, rfl⟩
  · cases hs

/-- sources and joins leave the clauses as they are -/
def Walked (c : Catalog) (walks : List Walk) (naming : Naming) (s : Scope) : Prop :=
  s.Follows c naming ∧ s.walks = walks

variable {walks : List Walk}

theorem addSources_follows {sources : List Source} (h : s.Walked c walks naming)
    (hs : s.addSources c sources = .ok s') :
    s'.Walked c walks (sources.foldl (fun naming source => naming.add source.reference []) naming) := by
  refine foldlM_follows (R := Walked c walks) (fun naming s source s' h hs => ?_) h hs
  have added := succeeded_ok hs
  obtain ⟨reads, hwalks⟩ := addSource_reads h.1.reads added
  have sound := addSource_sound h.1.sound source.entity source.name
  rw [added] at sound
  exact ⟨⟨sound, reads⟩, hwalks.trans h.2⟩

theorem addJoins_follows {joins : List Join} (h : s.Walked c walks naming) (hs : s.addJoins c joins = .ok s') :
    s'.Walked c walks
      (joins.foldl (fun naming join => naming.add join.name (naming.expand join.path.segments)) naming) := by
  refine foldlM_follows (R := Walked c walks) (fun naming s join s' h hs => ?_) h hs
  obtain ⟨path, hpath, hs⟩ := bind_eq_ok.1 hs
  have added := succeeded_ok hs
  obtain ⟨reads, hwalks⟩ := addJoin_reads h.1.reads added
  have sound := addJoin_sound h.1.sound (resolvePath_known h.1.sound hpath).1 join.name
  rw [added] at sound
  rw [resolvePath_below h.1 hpath] at reads
  exact ⟨⟨sound, reads⟩, hwalks.trans h.2⟩

end Scope

end EntitySearch
