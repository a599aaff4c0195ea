/-
What a resolved query holds.

All clauses are walked in one scope, the one behind the FROM clause (`ResolvedStatement.scope`). `Statement.Steps` are
the steps of resolution, one by one; `resolve_iff` is the only place where it is taken apart and put together. What they
come to is `Statement.Resolves`: which resolved clause comes from which written one, in a scope that follows the naming
of the query. Rendering rests on what becomes of the properties in it: one outside SELECT is `Testable`, one in SELECT
`Selectable`, and the canonical names of either are those to which its reference points (`resolveProperty_testable`,
`resolveProperty_selectable`).
-/
import EntitySearch.Proofs.Resolve.Naming
import EntitySearch.Render.Statement

namespace EntitySearch

namespace Catalog

/-- a property that conditions, groups and orders may speak of: no analyzed scalar -/
structure Testable (c : Catalog) (entity : String) (path : List String) : Prop where
  present : c.hasProperty entity path = true
  plain : c.Plain entity path

/-- a property that may be asked for: no embedded object -/
structure Selectable (c : Catalog) (entity : String) (path : List String) : Prop where
  present : c.hasProperty entity path = true
  scalar : c.isEmbedded entity path = false

end Catalog

namespace ResolvedStatement

/-- the scope in which the clauses of a query were walked -/
def scope (s : ResolvedStatement) : Scope := ⟨s.aliases, some s.target, []⟩

theorem scope_target (s : ResolvedStatement) : s.scope.target = some s.target := rfl

end ResolvedStatement

/-- an item of the ORDER BY list, resolved -/
def Scope.resolveOrder (c : Catalog) (s : Scope) (item : OrderItem) : Except QueryError ResolvedOrder := do
  .ok ⟨← s.resolveProperty c item.path, item.ascending⟩

namespace Statement

variable {c : Catalog} {parameters : Parameters} {q : Statement} {r : ResolvedStatement}

/-- The steps in which a query is resolved: the scope behind the sources, the one behind the joins, and the clauses, all
in the scope that is left when the FROM clause ends. -/
structure Steps (c : Catalog) (parameters : Parameters) (q : Statement) (s s' : Scope) (r : ResolvedStatement) :
    Prop where
  sources : (Scope.initial.enter .sources).addSources c q.sources = .ok s
  joins : s.addJoins c q.joins = .ok s'
  scope : s'.leave = r.scope
  distinct : (q.select.map (·.distinct)).getD false = r.distinct
  items : ((q.select.map (·.items)).getD []).mapM ((r.scope.enter .select).resolveItem c) = .ok r.items
  filter : resolveOptional c parameters r.scope .filter q.filter = .ok r.filter
  groupBy : (q.groupBy.getD []).mapM (r.scope.resolveProperty c) = .ok r.groupBy
  having : resolveOptional c parameters r.scope .having q.having = .ok r.having
  orderBy : (q.orderBy.getD []).mapM ((r.scope.enter .order).resolveOrder c) = .ok r.orderBy

/-- a query resolves in these steps and in no others -/
theorem resolve_iff : q.resolve c parameters = .ok r ↔ ∃ s s', q.Steps c parameters s s' r := by
  constructor
  · intro h
    simp only [Statement.resolve, bind_eq_ok] at h
    obtain ⟨s, hs, s', hs', items, hitems, filter, hfilter, groupBy, hgroup, having, hhaving, orderBy, horder, h⟩ := h
    have start : (Scope.initial.enter .sources).Walked c [.sources] [] := ⟨(Scope.initial_follows c).enter _, rfl⟩
    obtain ⟨-, walks⟩ := Scope.addJoins_follows (Scope.addSources_follows start hs) hs'
    split at h
    · cases h
    · rename_i target htarget
      cases h
      have scope_eq : s'.leave = ⟨s'.aliases, some target, []⟩ := by
        simp only [Scope.leave, walks, ← htarget, List.tail_cons]
      rw [scope_eq] at hitems hfilter hgroup hhaving horder
      exact ⟨s, s', hs, hs', scope_eq, rfl, hitems, hfilter, hgroup, hhaving, horder⟩
  · rintro ⟨s, s', steps⟩
    obtain ⟨target, distinct, items, filter, groupBy, having, orderBy, aliases⟩ := r
    have htarget : s'.leave.target = some target := by rw [steps.scope]; rfl
    have haliases : s'.leave.aliases = aliases := by rw [steps.scope]; rfl
    have ordered := steps.orderBy
    unfold Scope.resolveOrder at ordered
    simp only [Statement.resolve, steps.sources, steps.joins, ok_bind]
    rw [htarget, haliases, steps.scope, steps.items, ok_bind, steps.filter, ok_bind, steps.groupBy, ok_bind,
      steps.having, ok_bind, ordered, ok_bind, steps.distinct]

/-- The clauses of a resolved query come from those of the query, in a scope that follows its naming. -/
structure Resolves (c : Catalog) (parameters : Parameters) (q : Statement) (r : ResolvedStatement) : Prop where
  follows : r.scope.Follows c q.naming
  items : List.Forall₂ (fun item i => (r.scope.enter .select).resolveItem c item = .ok i)
    ((q.select.map (·.items)).getD []) r.items
  filter : resolveOptional c parameters r.scope .filter q.filter = .ok r.filter
  groupBy : List.Forall₂ (fun e p => r.scope.resolveProperty c e = .ok p) (q.groupBy.getD []) r.groupBy
  having : resolveOptional c parameters r.scope .having q.having = .ok r.having
  orderBy : List.Forall₂ (fun item i => (r.scope.enter .order).resolveProperty c item.path = .ok i.path)
    (q.orderBy.getD []) r.orderBy

theorem resolve_ok (h : q.resolve c parameters = .ok r) : q.Resolves c parameters r := by
  obtain ⟨s, s', steps⟩ := resolve_iff.1 h
  have start : (Scope.initial.enter .sources).Walked c [.sources] [] := ⟨(Scope.initial_follows c).enter _, rfl⟩
  obtain ⟨follows, -⟩ := Scope.addJoins_follows (Scope.addSources_follows start steps.sources) steps.joins
  refine ⟨steps.scope ▸ follows.leave, mapM_eq_ok.1 steps.items, steps.filter, mapM_eq_ok.1 steps.groupBy,
    steps.having, (mapM_eq_ok.1 steps.orderBy).imp fun item i hi => ?_⟩
  obtain ⟨p, hp, hi⟩ := bind_eq_ok.1 hi
  cases hi
  exact hp

end Statement

namespace Scope

variable {c : Catalog} {s : Scope} {naming : Naming} {target : Target} {e : PathExpr} {p : Path}

/-! ## Properties -/

theorem Knows.canonicalNames (h : s.Knows c p) : s.aliases.canonicalNames p = .ok p.below := by
  obtain ⟨_, -, sound⟩ := h
  have canonical : s.aliases.canonical p = .ok p.below := sound.canonical
  simp only [AliasTable.canonicalNames, canonical]

/-- the end of a path that is a property, in the catalog's words -/
theorem Admits.property_of (known : s.Knows c p) (ht : s.target = some target) (admitted : s.Admits c p)
    (hsteps : p.steps ≠ []) :
    c.hasProperty target.entity p.below = true ∧
      (s.inSelect = true → c.isEmbedded target.entity p.below = false) ∧
      (s.inSelect = false → c.Plain target.entity p.below) := by
  obtain ⟨target', ht', sound⟩ := known
  cases ht.symm.trans ht'
  refine ⟨sound.hasProperty hsteps, ?_⟩
  cases admitted with
  | entity _ none_behind => exact absurd none_behind hsteps
  | object _ none_behind => exact absurd none_behind hsteps
  | property _ selected tested =>
    rw [sound.root] at selected tested
    exact ⟨selected, tested⟩

/-- **A property outside SELECT** has canonical names, those to which its reference points, and may be tested. -/
theorem resolveProperty_testable (h : s.Follows c naming) (ht : s.target = some target) (outside : s.inSelect = false)
    (hp : s.resolveProperty c e = .ok p) :
    s.aliases.canonicalNames p = .ok (naming.expand e.segments) ∧
      c.Testable target.entity (naming.expand e.segments) := by
  obtain ⟨known, admitted, hsteps⟩ := resolveProperty_known h.sound hp
  obtain ⟨present, -, tested⟩ := admitted.property_of known ht hsteps
  rw [← resolveProperty_below h hp]
  exact ⟨known.canonicalNames, present, tested outside⟩

/-- **A property in SELECT** has canonical names, those to which its reference points, and is no object. -/
theorem resolveProperty_selectable (h : s.Follows c naming) (ht : s.target = some target) (inside : s.inSelect = true)
    (hp : s.resolveProperty c e = .ok p) :
    s.aliases.canonicalNames p = .ok (naming.expand e.segments) ∧
      c.Selectable target.entity (naming.expand e.segments) := by
  obtain ⟨known, admitted, hsteps⟩ := resolveProperty_known h.sound hp
  obtain ⟨present, selected, -⟩ := admitted.property_of known ht hsteps
  rw [← resolveProperty_below h hp]
  exact ⟨known.canonicalNames, present, selected inside⟩

/-- a path in SELECT is the alias of a root entity, or a property that is no object -/
theorem resolvePath_selectable (h : s.Follows c naming) (ht : s.target = some target) (inside : s.inSelect = true)
    (hp : s.resolvePath c e = .ok p) :
    Render.isRootAlias s.aliases p = true ∨
      s.aliases.canonicalNames p = .ok (naming.expand e.segments) ∧
        c.Selectable target.entity (naming.expand e.segments) := by
  obtain ⟨known, admitted⟩ := resolvePath_known h.sound hp
  by_cases hsteps : p.steps = []
  · cases admitted with
    | entity hstart _ bound => exact .inl (by simp [Render.isRootAlias, hstart, hsteps, bound])
    | object _ _ _ outside => simp [inside] at outside
    | property steps => exact absurd hsteps steps
  · obtain ⟨present, selected, -⟩ := admitted.property_of known ht hsteps
    rw [← resolvePath_below h hp]
    exact .inr ⟨known.canonicalNames, present, selected inside⟩

end Scope

end EntitySearch
