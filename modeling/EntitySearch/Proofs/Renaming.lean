/-
Results do not depend on the names of aliases.

`Statement.renamed` gives new names to the aliases of sources and joins, where they are declared and in front of every
reference that they stand for; a reference in a join is to the aliases before it only. If the new names are different
and in use for nothing else (`Statement.Renaming`), both queries declare their aliases side by side
(`addSources_renamed`, `addJoins_renamed`), every reference has one that means the same (`rewrites_renamed`), and the
renamed query has the same result (`compile_renamed`).

The name of an entity that goes without an alias cannot be changed, and whatever else has that name shares it. Two
sources that share a name are one root; if the alias of one of them is renamed they are two, and nothing can be referred
to any more (`hikesTwice_renamed`). So such an alias keeps its name.
-/
import EntitySearch.Proofs.Engine
import EntitySearch.Proofs.Expansion
import EntitySearch.Proofs.Resolve.Renaming

namespace EntitySearch

/-! ## Queries under other names -/

/-- a source with its alias renamed, if it has one -/
def Source.renamed (ρ : String → String) (source : Source) : Source := { source with name := source.name.map ρ }

/-- a reference with its front renamed, if that is one of the names bound -/
def PathExpr.renamed (called : String → String) (bound : List String) (e : PathExpr) : PathExpr :=
  e.mapFront fun first => if first ∈ bound then called first else first

/-- joins with their aliases renamed, where each reference is to the names bound before -/
def renameJoins (ρ called : String → String) : (bound : List String) → List Join → List Join
  | _, [] => []
  | bound, join :: rest =>
    { join with path := join.path.renamed called bound, name := ρ join.name } ::
      renameJoins ρ called (bound ++ [join.name]) rest

namespace Statement

/-- the names of the entities that go without an alias -/
def plainNames (q : Statement) : List String := (q.sources.filter (·.name.isNone)).map (·.entity)

/-- the aliases given to sources -/
def rootNames (q : Statement) : List String := q.sources.filterMap (·.name)

/-- the aliases given to sources and joins -/
def givenNames (q : Statement) : List String := q.rootNames ++ q.joins.map (·.name)

/-- all names that stand for something, those of entities without an alias too -/
def aliasNames (q : Statement) : List String := q.sources.map (·.reference) ++ q.joins.map (·.name)

/-- what becomes of an alias in front of a reference: the name of an entity without an alias stays -/
def called (q : Statement) (ρ : String → String) (name : String) : String :=
  if name ∈ q.plainNames then name else ρ name

/-- the query with its aliases renamed, in their declarations and in front of every reference -/
def renamed (ρ : String → String) (q : Statement) : Statement :=
  { q.mapPaths (PathExpr.renamed (q.called ρ) q.aliasNames) with
    sources := q.sources.map (Source.renamed ρ)
    joins := renameJoins ρ (q.called ρ) (q.sources.map (·.reference)) q.joins }

end Statement

/-- the references in an operand -/
def Operand.references : Operand → List PathExpr
  | .path e => [e]
  | .aggregate a => [a.path]
  | _ => []

/-- the references in an item of the SELECT list -/
def SelectItem.references : SelectItem → List PathExpr
  | .path e => [e]
  | .aggregate a => [a.path]

/-- the references in the operands of a condition -/
def Condition.references (w : Option (Condition Operand)) : List PathExpr :=
  (w.map fun w => w.operands.flatMap Operand.references).getD []

/-- every reference in a query -/
def Statement.references (q : Statement) : List PathExpr :=
  q.joins.map (·.path) ++ ((q.select.map (·.items)).getD []).flatMap SelectItem.references ++
    Condition.references q.filter ++ q.groupBy.getD [] ++ Condition.references q.having ++
    (q.orderBy.getD []).map (·.path)

/-- New names for the aliases of a query. They differ, and are no names that stand for something or that a reference
starts with. An alias may keep its name, and one that an entity goes by without an alias does. -/
structure Statement.Renaming (ρ : String → String) (q : Statement) : Prop where
  injective : ∀ a ∈ q.givenNames, ∀ b ∈ q.givenNames, ρ a = ρ b → a = b
  fresh : ∀ a ∈ q.givenNames, ρ a = a ∨
    ρ a ∉ q.aliasNames ∧ ∀ e ∈ q.references, e.segments.head? ≠ some (ρ a)
  kept : ∀ a ∈ q.rootNames, a ∈ q.plainNames → ρ a = a

/-- peaks for hikes, and feet for the places where they start -/
def peaksAndFeet (name : String) : String := if name = "h" then "peak" else if name = "s" then "foot" else name

-- a name may be that of a property in one join, and the alias that it declares in the next
example : renameJoins peaksAndFeet peaksAndFeet ["h"]
    [⟨true, false, ⟨["s"], none⟩, "s"⟩, ⟨true, false, ⟨["s", "inner"], none⟩, "t"⟩] =
      [⟨true, false, ⟨["s"], none⟩, "foot"⟩, ⟨true, false, ⟨["foot", "inner"], none⟩, "t"⟩] := by decide

/-! ### The same references -/

section

variable {g g' : PathExpr → PathExpr} {w : Option (Condition Operand)} {q : Statement}

theorem Operand.mapPath_congr {o : Operand} (h : ∀ e ∈ o.references, g e = g' e) : o.mapPath g = o.mapPath g' := by
  cases o <;> simp_all [mapPath, AggregateExpr.mapPath, references]

theorem SelectItem.mapPath_congr {item : SelectItem} (h : ∀ e ∈ item.references, g e = g' e) :
    item.mapPath g = item.mapPath g' := by
  cases item <;> simp_all [mapPath, AggregateExpr.mapPath, references]

theorem Condition.mapPath_congr (h : ∀ e ∈ Condition.references w, g e = g' e) :
    w.map (Condition.map (Operand.mapPath g)) = w.map (Condition.map (Operand.mapPath g')) := by
  cases w with
  | none => rfl
  | some w =>
    refine congrArg some (Condition.map_congr w fun o ho => Operand.mapPath_congr fun e he => ?_)
    exact h e (List.mem_flatMap.2 ⟨o, ho, he⟩)

/-- what references are replaced by matters for those in the query only -/
theorem Statement.mapPaths_congr (h : ∀ e ∈ q.references, g e = g' e) : q.mapPaths g = q.mapPaths g' := by
  obtain ⟨select, sources, joins, filter, groupBy, having, orderBy⟩ := q
  simp only [references, List.mem_append, or_imp, forall_and] at h
  obtain ⟨⟨⟨⟨⟨-, selected⟩, filtered⟩, grouped⟩, restricted⟩, ordered⟩ := h
  simp only [mapPaths, mk.injEq, true_and]
  refine ⟨?_, Condition.mapPath_congr filtered, ?_, Condition.mapPath_congr restricted, ?_⟩
  · cases select with
    | none => rfl
    | some s =>
      refine congrArg some (congrArg (Select.mk s.distinct) (List.map_congr_left fun item hitem => ?_))
      exact SelectItem.mapPath_congr fun e he => selected e (List.mem_flatMap.2 ⟨item, hitem, he⟩)
  · cases groupBy with
    | none => rfl
    | some es => exact congrArg some (List.map_congr_left grouped)
  · cases orderBy with
    | none => rfl
    | some items =>
      refine congrArg some (List.map_congr_left fun item hitem => ?_)
      rw [OrderItem.mapPath, OrderItem.mapPath, ordered item.path (List.mem_map_of_mem hitem)]

end

/-! ## Declared side by side -/

/-- the old and the new name of each source -/
def Source.decls (ρ : String → String) (sources : List Source) : List (String × String) :=
  sources.map fun source => (source.reference, (source.renamed ρ).reference)

/-- the old and the new name of each join -/
def Join.decls (ρ : String → String) (joins : List Join) : List (String × String) :=
  joins.map fun join => (join.name, ρ join.name)

/-- the old and the new name of everything that is declared -/
def Statement.decls (ρ : String → String) (q : Statement) : List (String × String) :=
  Source.decls ρ q.sources ++ Join.decls ρ q.joins

namespace Statement

variable {ρ : String → String} {q : Statement}

theorem decls_old (ρ : String → String) (q : Statement) : (q.decls ρ).map Prod.fst = q.aliasNames := by
  rw [decls, List.map_append, Source.decls, Join.decls, List.map_map, List.map_map]
  rfl

theorem decls_source {source : Source} (h : source ∈ q.sources) :
    (source.reference, (source.renamed ρ).reference) ∈ q.decls ρ := List.mem_append_left _ (List.mem_map_of_mem h)

theorem decls_join {join : Join} (h : join ∈ q.joins) : (join.name, ρ join.name) ∈ q.decls ρ :=
  List.mem_append_right _ (List.mem_map_of_mem h)

theorem references_join {join : Join} (h : join ∈ q.joins) : join.path ∈ q.references := by
  simp only [references, List.mem_append]
  exact .inl (.inl (.inl (.inl (.inl (List.mem_map_of_mem h)))))

theorem mem_plainNames {name : String} :
    name ∈ q.plainNames ↔ ∃ source ∈ q.sources, source.name = none ∧ source.entity = name := by
  simp [plainNames, and_assoc]

theorem aliasNames_of_plain {name : String} (h : name ∈ q.plainNames) : name ∈ q.sources.map (·.reference) := by
  obtain ⟨source, hsource, plain, rfl⟩ := mem_plainNames.1 h
  exact List.mem_map.2 ⟨source, hsource, by rw [Source.reference, plain]; rfl⟩

/-- what is declared is an entity without an alias, or an alias that is renamed -/
theorem mem_decls {name name' : String} (h : (name, name') ∈ q.decls ρ) :
    name ∈ q.plainNames ∧ name' = name ∨ name ∈ q.givenNames ∧ name' = ρ name := by
  rcases List.mem_append.1 h with h | h
  · obtain ⟨source, hsource, same⟩ := List.mem_map.1 h
    cases same
    cases hname : source.name with
    | none => exact .inl ⟨mem_plainNames.2 ⟨source, hsource, hname, by simp [Source.reference, hname]⟩,
        by simp [Source.reference, Source.renamed, hname]⟩
    | some a =>
      have given : a ∈ q.rootNames := List.mem_filterMap.2 ⟨source, hsource, hname⟩
      exact .inr (by simp [Source.reference, Source.renamed, hname, givenNames, given])
  · obtain ⟨join, hjoin, same⟩ := List.mem_map.1 h
    cases same
    exact .inr ⟨List.mem_append_right _ (List.mem_map_of_mem hjoin), rfl⟩

namespace Renaming

/-- different names are declared under different new names -/
theorem reserved (h : q.Renaming ρ) {name name' : String} (declared : (name, name') ∈ q.decls ρ) :
    AliasTable.Reserved (q.decls ρ) name name' := by
  -- a new name that is also the name of an entity without an alias is an old one that was kept
  have apart : ∀ n ∈ q.plainNames, ∀ a ∈ q.givenNames, n = ρ a → n = a := by
    intro n hn a ha same
    rcases h.fresh a ha with kept | ⟨unused, -⟩
    · rw [same, kept]
    · exact absurd (List.mem_append_left _ (aliasNames_of_plain (same ▸ hn))) unused
  intro other hother
  rcases mem_decls hother with ⟨plain, same⟩ | ⟨given, same⟩ <;>
    rcases mem_decls declared with ⟨plain', same'⟩ | ⟨given', same'⟩
  · exact same.symm.trans same'
  · exact apart other plain name given' (same.symm.trans same')
  · exact (apart name plain' other given (same'.symm.trans same)).symm
  · exact h.injective other given name given' (same.symm.trans same')

/-- what a reference starts with is declared under no other old name -/
theorem reserved_front (h : q.Renaming ρ) {e : PathExpr} (he : e ∈ q.references) {first : String}
    (hfirst : first ∈ e.segments.head?) : AliasTable.Reserved (q.decls ρ) first first := by
  intro other declared
  rcases mem_decls declared with ⟨-, same⟩ | ⟨given, same⟩
  · exact same.symm
  · rcases h.fresh other given with kept | ⟨-, unread⟩
    · exact (same.trans kept).symm
    · exact absurd (same ▸ hfirst) (unread e he)

/-- a source is declared under the new name that references to it have -/
theorem reference_renamed (h : q.Renaming ρ) {source : Source} (hsource : source ∈ q.sources) :
    (source.renamed ρ).reference = q.called ρ source.reference := by
  cases hname : source.name with
  | none =>
    have plain : source.entity ∈ q.plainNames := mem_plainNames.2 ⟨source, hsource, hname, rfl⟩
    simp [Source.reference, Source.renamed, hname, called, plain]
  | some a =>
    have given : a ∈ q.rootNames := List.mem_filterMap.2 ⟨source, hsource, hname⟩
    by_cases plain : a ∈ q.plainNames
    · simp [Source.reference, Source.renamed, hname, called, plain, h.kept a given plain]
    · simp [Source.reference, Source.renamed, hname, called, plain]

end Renaming

end Statement

theorem snoc_subset {α : Type} {xs ys : List α} {x : α} (sub : xs ⊆ ys) (hx : x ∈ ys) : xs ++ [x] ⊆ ys :=
  List.append_subset.2 ⟨sub, List.cons_subset.2 ⟨hx, List.nil_subset ys⟩⟩

namespace Scope

open AliasTable

variable {c : Catalog} {ρ : String → String} {q : Statement} {s s₁ : Scope} {t' : AliasTable}
  {called : String → String} {decls : List (String × String)}

theorem addSource_renamed (fresh : q.Renaming ρ) (h : s.aliases.Redeclares (q.called ρ) decls t')
    (sub : decls ⊆ q.decls ρ) {source : Source} (hsource : source ∈ q.sources)
    (hs : s.addSource c source.entity source.name = (.ok (), s₁)) :
    ∃ t₁', (s.under t').addSource c (source.renamed ρ).entity (source.renamed ρ).name = (.ok (), s₁.under t₁') ∧
      s₁.aliases.Redeclares (q.called ρ) (decls ++ [(source.reference, (source.renamed ρ).reference)]) t₁' := by
  have named := fresh.reference_renamed hsource
  have reserved := (fresh.reserved (Statement.decls_source hsource)).mono sub
  rw [named] at reserved
  -- the alias that the source binds is bound in the other table, too, under its new name
  have declared {entity : String} {aliases : AliasTable}
      (hbind : s.aliases.bindRoot (source.name.getD source.entity) entity = .ok aliases) :
      ∃ t₁', t'.registerRoot ((source.name.map ρ).getD source.entity) entity = (.ok (), t₁') ∧
        aliases.Redeclares (q.called ρ) (decls ++ [(source.reference, (source.renamed ρ).reference)]) t₁' := by
    obtain ⟨t₁', hbind', redeclares⟩ := h.bindRoot reserved hbind
    rw [← named] at hbind' redeclares
    exact ⟨t₁', bindRoot_eq_ok.1 hbind', redeclares⟩
  have step := s.addSource_step c source.entity source.name
  rw [hs] at step
  cases step with
  | first known hbind ht =>
    obtain ⟨t₁', bound, redeclares⟩ := declared hbind
    refine ⟨t₁', ?_, redeclares⟩
    simp only [addSource, Source.renamed, known, under_aliases, bound, under_target, ht]
    rfl
  | again known hbind ht =>
    obtain ⟨t₁', bound, redeclares⟩ := declared hbind
    refine ⟨t₁', ?_, redeclares⟩
    simp only [addSource, Source.renamed, known, under_aliases, bound, under_target, ht, beq_self_eq_true, if_true]
    rfl

/-- **Sources are declared side by side.** -/
theorem addSources_renamed (fresh : q.Renaming ρ) {sources : List Source} (all : sources ⊆ q.sources)
    (sub : decls ⊆ q.decls ρ) (h : s.aliases.Redeclares (q.called ρ) decls t') (hs : s.addSources c sources = .ok s₁) :
    ∃ t₁', (s.under t').addSources c (sources.map (Source.renamed ρ)) = .ok (s₁.under t₁') ∧
      s₁.aliases.Redeclares (q.called ρ) (decls ++ Source.decls ρ sources) t₁' := by
  induction sources generalizing s t' decls with
  | nil =>
    cases hs
    exact ⟨t', rfl, by simpa [Source.decls] using h⟩
  | cons source rest ih =>
    obtain ⟨s₂, hadd, hs⟩ := bind_eq_ok.1 hs
    have hsource := all List.mem_cons_self
    have declared := snoc_subset sub (Statement.decls_source hsource)
    obtain ⟨t₂', hadd', h₂⟩ := addSource_renamed fresh h sub hsource (succeeded_ok hadd)
    obtain ⟨t₁', hs', h₁⟩ := ih (List.subset_of_cons_subset all) declared h₂ hs
    refine ⟨t₁', ?_, by rwa [List.append_assoc] at h₁⟩
    rw [List.map_cons, addSources, List.foldlM_cons, hadd']
    exact hs'

theorem addJoin_renamed (h : s.aliases.Redeclares called decls t') {name name' : String}
    (reserved : Reserved decls name name') (named : s.aliases.get? name = none → name' = called name) {path : Path}
    (hs : s.addJoin name path = (.ok (), s₁)) :
    ∃ t₁', (s.under t').addJoin name' (path.renamed called) = (.ok (), s₁.under t₁') ∧
      s₁.aliases.Redeclares called (decls ++ [(name, name')]) t₁' := by
  unfold addJoin at hs ⊢
  rw [Path.renamed_endsInObject]
  split at hs
  · cases hs
    rw [if_pos ‹_›]
    exact ⟨_, rfl, h.bindJoin reserved named path⟩
  · cases hs

/-- **Joins are declared side by side**, each with its reference to the names before it renamed. -/
theorem addJoins_renamed (fresh : q.Renaming ρ) {joins : List Join} (all : joins ⊆ q.joins) (sub : decls ⊆ q.decls ρ)
    (plain : q.plainNames ⊆ decls.map Prod.fst) (h : s.aliases.Redeclares (q.called ρ) decls t')
    (hs : s.addJoins c joins = .ok s₁) :
    ∃ t₁', (s.under t').addJoins c (renameJoins ρ (q.called ρ) (decls.map Prod.fst) joins) = .ok (s₁.under t₁') ∧
      s₁.aliases.Redeclares (q.called ρ) (decls ++ Join.decls ρ joins) t₁' := by
  induction joins generalizing s t' decls with
  | nil =>
    cases hs
    exact ⟨t', rfl, by simpa [Join.decls] using h⟩
  | cons join rest ih =>
    obtain ⟨s₂, hadd, hs⟩ := bind_eq_ok.1 hs
    obtain ⟨path, hpath, hadd⟩ := bind_eq_ok.1 hadd
    have hjoin := all List.mem_cons_self
    have declared := snoc_subset sub (Statement.decls_join hjoin)
    have read := resolvePath_renamed h.toRenames (fun first hfirst =>
      h.front (h.free ((fresh.reserved_front (Statement.references_join hjoin) hfirst).mono sub))) hpath
    have named : s.aliases.get? join.name = none → ρ join.name = q.called ρ join.name := by
      intro unbound
      have other : join.name ∉ q.plainNames := fun hplain => by
        obtain ⟨b, hb⟩ := (h.old join.name).2 (plain hplain)
        cases unbound.symm.trans hb
      rw [Statement.called, if_neg other]
    have reserved := (fresh.reserved (Statement.decls_join hjoin)).mono sub
    obtain ⟨t₂', hadd', h₂⟩ := addJoin_renamed h reserved named (succeeded_ok hadd)
    have still : q.plainNames ⊆ (decls ++ [(join.name, ρ join.name)]).map Prod.fst := by
      rw [List.map_append]
      exact List.subset_append_of_subset_left _ plain
    obtain ⟨t₁', hs', h₁⟩ := ih (List.subset_of_cons_subset all) declared still h₂ hs
    refine ⟨t₁', ?_, by rwa [List.append_assoc] at h₁⟩
    rw [List.map_append] at hs'
    rw [renameJoins, addJoins, List.foldlM_cons, PathExpr.renamed]
    simp only [read, ok_bind, hadd']
    exact hs'

end Scope

/-! ## The same result -/

section

open AliasTable

variable {c : Catalog} {called : String → String} {decls : List (String × String)} {t t' : AliasTable}

/-- the front of a reference is free in the first table, but not in the second -/
def AliasTable.taken (t t' : AliasTable) (e : PathExpr) : Bool :=
  e.segments.head?.any fun first => !t.isAlias first && t'.isAlias first

/-- a reference with its front renamed, or written out if its front has become an alias of something else -/
def Naming.counterpart (naming : Naming) (t t' : AliasTable) (root : String) (called : String → String)
    (bound : List String) (e : PathExpr) : PathExpr :=
  if t.taken t' e then naming.rooted root e else e.renamed called bound

theorem AliasTable.Redeclares.front_of_untaken (h : Redeclares called decls t t') {e : PathExpr}
    (untaken : ¬t.taken t' e = true) : ∀ first ∈ e.segments.head?,
      t.Front called t' first (if first ∈ decls.map Prod.fst then called first else first) := by
  intro first hfirst
  rw [Option.mem_def] at hfirst
  refine h.front fun unbound => ?_
  simpa [taken, hfirst, isAlias, unbound] using untaken

theorem AliasTable.Renames.isRootAlias {s : Scope} (h : s.aliases.Renames called t') {p : Path} (starts : s.Starts p) :
    Render.isRootAlias t' (p.renamed called) = Render.isRootAlias s.aliases p := by
  unfold Render.isRootAlias
  cases hstart : p.start with
  | none => simp [hstart]
  | some name =>
    obtain ⟨b, bound⟩ := starts name hstart
    cases hsteps : p.steps with
    | cons step rest => simp [hstart, hsteps]
    | nil => cases b <;> simp [hstart, hsteps, bound, h.bound bound, Binding.renamed]

namespace Scope

variable {naming naming' : Naming} {root : String} {target : Target}

/-- **Every reference has one that means the same** with the second table. -/
theorem rewrites_renamed (follows : (⟨t, some target, []⟩ : Scope).Follows c naming)
    (follows' : (⟨t', some target, []⟩ : Scope).Follows c naming') (h : Redeclares called decls t t')
    (bound : t'.get? root = some (.root target.entity)) :
    t.Rewrites c target (naming.counterpart t t' root called (decls.map Prod.fst)) t' where
  property walks {e p} hp := by
    by_cases taken : t.taken t' e = true
    · rw [Naming.counterpart, if_pos taken]
      obtain ⟨p₁, hp₁, -⟩ := bind_eq_ok.1 hp
      have single : t.rootAliases.length ≤ 1 := resolvePath_single hp₁
      exact (rewrites_expanded follows follows' ⟨h.roots ▸ single, bound⟩).property walks hp
    · rw [Naming.counterpart, if_neg taken, PathExpr.renamed]
      have sound : (⟨t, some target, walks⟩ : Scope).Sound c := follows.sound.of_eq rfl rfl
      have sound' : (⟨t', some target, walks⟩ : Scope).Sound c := follows'.sound.of_eq rfl rfl
      have hp' := resolveProperty_renamed (s := ⟨t, some target, walks⟩) h.toRenames (h.front_of_untaken taken) hp
      refine ⟨p.renamed called, hp', ?_⟩
      rw [(resolveProperty_known sound' hp').1.canonicalNames, (resolveProperty_known sound hp).1.canonicalNames]
      rfl
  item {e p} hp := by
    by_cases taken : t.taken t' e = true
    · rw [Naming.counterpart, if_pos taken]
      have single : t.rootAliases.length ≤ 1 := resolvePath_single hp
      exact (rewrites_expanded follows follows' ⟨h.roots ▸ single, bound⟩).item hp
    · rw [Naming.counterpart, if_neg taken, PathExpr.renamed]
      have sound : (⟨t, some target, [.select]⟩ : Scope).Sound c := follows.sound.of_eq rfl rfl
      have sound' : (⟨t', some target, [.select]⟩ : Scope).Sound c := follows'.sound.of_eq rfl rfl
      have hp' := resolvePath_renamed (s := ⟨t, some target, [.select]⟩) h.toRenames (h.front_of_untaken taken) hp
      refine ⟨p.renamed called, hp', ?_⟩
      have same : t'.canonicalNames (p.renamed called) = t.canonicalNames p := by
        rw [(resolvePath_known sound' hp').1.canonicalNames, (resolvePath_known sound hp).1.canonicalNames]
        rfl
      have starts := (starts_closed c ⟨t, some target, [.select]⟩).resolvePath hp
      rw [Render.projection, Render.projection, h.toRenames.isRootAlias starts, Render.propertyName,
        Render.propertyName, same]

/-- a reference and what is put in its place point to the same -/
theorem expand_counterpart (reads : Reads naming t) (reads' : Reads naming' t') (h : Redeclares called decls t t')
    (bound : t'.get? root = some (.root target.entity)) (e : PathExpr) :
    naming'.expand (naming.counterpart t t' root called (decls.map Prod.fst) e).segments =
      naming.expand e.segments := by
  by_cases taken : t.taken t' e = true
  · rw [Naming.counterpart, if_pos taken]
    simp [Naming.rooted, Naming.expand, reads' root, bound, Binding.below]
  · rw [Naming.counterpart, if_neg taken]
    have front := h.front_of_untaken taken
    obtain ⟨segments, index⟩ := e
    cases segments with
    | nil => rfl
    | cons first rest =>
      simp only [PathExpr.renamed, PathExpr.mapFront, mapFirst, Naming.expand]
      have named := front first rfl
      generalize (if first ∈ decls.map Prod.fst then called first else first) = first' at named ⊢
      cases named with
      | bound hb => simp [reads first, reads' (called first), hb, h.bound hb]
      | free unbound unbound' => simp [reads first, reads' first, unbound, unbound']

end Scope

variable {ρ : String → String} {q : Statement} {parameters : Parameters} {s : ResolvedStatement}

/-- the renamed query declares its aliases beside the query -/
theorem sources_joins_renamed (fresh : q.Renaming ρ) {front back : Scope}
    (sources : (Scope.initial.enter .sources).addSources c q.sources = .ok front)
    (joins : front.addJoins c q.joins = .ok back) : ∃ t₁ t₂,
      (Scope.initial.enter .sources).addSources c (q.renamed ρ).sources = .ok (front.under t₁) ∧
      (front.under t₁).addJoins c (q.renamed ρ).joins = .ok (back.under t₂) ∧
      back.aliases.Redeclares (q.called ρ) (q.decls ρ) t₂ := by
  have none_yet : (Scope.initial.enter .sources).aliases.Redeclares (q.called ρ) [] .empty := redeclares_empty _
  obtain ⟨t₁, sources', h₁⟩ := Scope.addSources_renamed fresh (List.Subset.refl _) (List.nil_subset _) none_yet sources
  rw [List.nil_append] at h₁
  have references : (Source.decls ρ q.sources).map Prod.fst = q.sources.map (·.reference) := by
    rw [Source.decls, List.map_map]
    rfl
  have plain : q.plainNames ⊆ (Source.decls ρ q.sources).map Prod.fst := fun name hname =>
    references ▸ Statement.aliasNames_of_plain hname
  obtain ⟨t₂, joins', h₂⟩ :=
    Scope.addJoins_renamed fresh (List.Subset.refl _) (List.subset_append_left _ _) plain h₁ joins
  rw [references] at joins'
  exact ⟨t₁, t₂, sources', joins', h₂⟩

/-- no reference in the query starts with a new name of something else -/
theorem Statement.Renaming.untaken (fresh : q.Renaming ρ) (h : t.Redeclares called (q.decls ρ) t') {e : PathExpr}
    (he : e ∈ q.references) : ¬t.taken t' e = true := by
  intro taken
  obtain ⟨first, hfirst, both⟩ := Option.any_eq_true _ _ |>.1 taken
  simp only [isAlias, Bool.and_eq_true, Bool.not_eq_true', Option.isSome_eq_false_iff, Option.isNone_iff_eq_none]
    at both
  have unbound' := h.free (fresh.reserved_front he hfirst) both.1
  simp [unbound'] at both

/-- **Results do not depend on the names of aliases.** Whatever a query compiles to, it compiles to after its aliases
are renamed, if the new names differ and are in use for nothing else, and the alias of a source that another source goes
by without an alias stays. -/
theorem compile_renamed {Q : Type} {f : Factory Q} {r : QueryResult Q} (fresh : q.Renaming ρ)
    (compiled : q.compile c parameters f = .ok r) : (q.renamed ρ).compile c parameters f = .ok r := by
  obtain ⟨s, resolved, rendered⟩ := bind_eq_ok.1 compiled
  obtain ⟨front, back, steps⟩ := Statement.resolve_iff.1 resolved
  obtain ⟨t₁, t₂, sources', joins', redeclares⟩ := sources_joins_renamed fresh steps.sources steps.joins
  have haliases : back.aliases = s.aliases := congrArg Scope.aliases steps.scope
  rw [haliases] at redeclares
  have scope : (back.under t₂).leave = ⟨t₂, some s.target, []⟩ :=
    congrArg (Scope.under · t₂) steps.scope
  -- both scopes follow the naming of their query
  have follows := (Statement.resolve_ok resolved).follows
  have start : (Scope.initial.enter .sources).Walked c [.sources] [] := ⟨(Scope.initial_follows c).enter _, rfl⟩
  have follows' : (⟨t₂, some s.target, []⟩ : Scope).Follows c (q.renamed ρ).naming :=
    scope ▸ (Scope.addJoins_follows (Scope.addSources_follows start sources') joins').1.leave
  obtain ⟨root, bound⟩ := follows'.sound.rooted s.target rfl
  -- in the query itself no front is taken, so renaming references is all that is done to them
  let g := q.naming.counterpart s.aliases t₂ root (q.called ρ) ((q.decls ρ).map Prod.fst)
  have same : q.mapPaths g = q.mapPaths (PathExpr.renamed (q.called ρ) q.aliasNames) :=
    Statement.mapPaths_congr fun e he => by
      simp only [g, Naming.counterpart, if_neg (fresh.untaken redeclares he), Statement.decls_old]
  have mapped : q.Mapped g (q.renamed ρ) := by
    constructor <;> rw [same] <;> rfl
  have rewrites := Scope.rewrites_renamed follows follows' redeclares bound
  obtain ⟨s', resolved', alike⟩ := resolve_rewritten resolved mapped sources' joins' scope rewrites
  obtain ⟨record, hrecord, rfl⟩ := map_eq_ok.1 ((ResolvedStatement.render_replay c f s).symm.trans rendered)
  have recorded : s'.render c Trace.factory = .ok record :=
    render_rewritten resolved hrecord mapped resolved' alike
      (Scope.expand_counterpart follows.reads follows'.reads redeclares bound)
  rw [Statement.compile, resolved', ok_bind, ResolvedStatement.render_replay, recorded]
  rfl

/-- Hard hikes are the same under other names. -/
theorem hardHikes_renamed : ∃ r, hardHikes.Renaming peaksAndFeet ∧
    hardHikes.compile hikes [("low", .long 0)] Trace.factory = .ok r ∧
    (hardHikes.renamed peaksAndFeet).compile hikes [("low", .long 0)] Trace.factory = .ok r := by
  have fresh : hardHikes.Renaming peaksAndFeet := ⟨by decide, by decide, by decide⟩
  obtain ⟨r, hr⟩ := exists_of_isOk (show
    (hardHikes.compile hikes [("low", .long 0)] Trace.factory).isOk = true by decide +kernel)
  exact ⟨r, fresh, hr, compile_renamed fresh hr⟩

/-- hikes twice, where one source goes by the name that is the alias of the other -/
def hikesTwice : Statement where
  select := none
  sources := [⟨"Hike", none⟩, ⟨"Hike", some "Hike"⟩]
  joins := []
  filter := some (.compare .equal (.path ⟨["Hike", "difficulty"], none⟩) (.literal (.number "1")))
  groupBy := none
  having := none
  orderBy := none

/-- Hikes twice compile while both sources share a name. With the alias of the second renamed, to a name that is in use
for nothing else, they are two roots and nothing can be referred to, by either name. -/
theorem hikesTwice_renamed :
    let ρ : String → String := fun name => if name = "Hike" then "z" else name
    let renamed := hikesTwice.renamed ρ
    (∀ a ∈ hikesTwice.givenNames, ∀ b ∈ hikesTwice.givenNames, ρ a = ρ b → a = b) ∧
      (∀ a ∈ hikesTwice.givenNames, ρ a ∉ hikesTwice.aliasNames ∧
        ∀ e ∈ hikesTwice.references, e.segments.head? ≠ some (ρ a)) ∧
      (hikesTwice.compile hikes [] Trace.factory).isOk = true ∧
      renamed.compile hikes [] Trace.factory = .error (.unsupported .severalRoots) ∧
      (renamed.mapPaths (PathExpr.mapFront ρ)).compile hikes [] Trace.factory =
        .error (.unsupported .severalRoots) := by
  refine ⟨by decide, by decide, by decide +kernel, rfl, rfl⟩

end

end EntitySearch
