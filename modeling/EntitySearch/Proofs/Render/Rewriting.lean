/-
Queries whose references are replaced.

`Statement.mapPaths` replaces the references of a query, and `AliasTable.Rewrites` says that with a second table of
aliases every replaced reference means what the reference did with the first. Then the second query resolves with the
first and names the same (`resolve_rewritten`), and it renders to the same, as its conditions have the same record
(`render_rewritten`).
-/
import EntitySearch.Proofs.Render.Written

namespace EntitySearch

/-! ## References replaced -/

section

variable (g : PathExpr → PathExpr)

def AggregateExpr.mapPath (a : AggregateExpr) : AggregateExpr := { a with path := g a.path }

def Operand.mapPath : Operand → Operand
  | .path e => .path (g e)
  | .aggregate a => .aggregate (a.mapPath g)
  | o => o

def SelectItem.mapPath : SelectItem → SelectItem
  | .path e => .path (g e)
  | .aggregate a => .aggregate (a.mapPath g)

def OrderItem.mapPath (item : OrderItem) : OrderItem := { item with path := g item.path }

/-- the query with the references in SELECT, WHERE, GROUP BY, HAVING and ORDER BY replaced -/
def Statement.mapPaths (q : Statement) : Statement :=
  { q with
    select := q.select.map fun s => { s with items := s.items.map (SelectItem.mapPath g) }
    filter := q.filter.map (Condition.map (Operand.mapPath g))
    groupBy := q.groupBy.map (List.map g)
    having := q.having.map (Condition.map (Operand.mapPath g))
    orderBy := q.orderBy.map (List.map (OrderItem.mapPath g)) }

end

/-- With the second table a replaced reference means what the reference means with the first, in every clause. -/
structure AliasTable.Rewrites (c : Catalog) (target : Target) (g : PathExpr → PathExpr) (t t' : AliasTable) : Prop where
  property : ∀ (walks : List Walk) {e : PathExpr} {p : Path},
    (⟨t, some target, walks⟩ : Scope).resolveProperty c e = .ok p →
      ∃ p', (⟨t', some target, walks⟩ : Scope).resolveProperty c (g e) = .ok p' ∧
        t'.canonicalNames p' = t.canonicalNames p
  item : ∀ {e : PathExpr} {p : Path}, (⟨t, some target, [.select]⟩ : Scope).resolvePath c e = .ok p →
    ∃ p', (⟨t', some target, [.select]⟩ : Scope).resolvePath c (g e) = .ok p' ∧
      Render.projection t' (.path p') = Render.projection t (.path p)

/-- a property to sort by, with its name -/
def Render.sortField (t : AliasTable) (item : ResolvedOrder) : Except QueryError SortField :=
  (Render.propertyName t item.path).map fun name => ⟨name, item.ascending⟩

namespace AliasTable.Rewrites

variable {c : Catalog} {parameters : Parameters} {target : Target} {g : PathExpr → PathExpr} {t t' : AliasTable}

/-! ### Clause by clause -/

theorem resolveItem (h : t.Rewrites c target g t') {item : SelectItem} {i : ResolvedItem}
    (hi : (⟨t, some target, [.select]⟩ : Scope).resolveItem c item = .ok i) :
    ∃ i', (⟨t', some target, [.select]⟩ : Scope).resolveItem c (item.mapPath g) = .ok i' ∧
      Render.projection t' i' = Render.projection t i := by
  cases item with
  | path e =>
    obtain ⟨p, hp, hi⟩ := bind_eq_ok.1 hi
    cases hi
    obtain ⟨p', hp', same⟩ := h.item hp
    exact ⟨.path p', by simp only [SelectItem.mapPath, Scope.resolveItem, hp', ok_bind], same⟩
  | aggregate a =>
    obtain ⟨path, hpath, hi⟩ := bind_eq_ok.1 hi
    cases hi
    obtain ⟨p, hp, hpath⟩ := bind_eq_ok.1 hpath
    cases hpath
    obtain ⟨p', hp', same⟩ := h.property [.select] hp
    refine ⟨.aggregate ⟨.of a.function a.distinct, p'⟩, ?_, ?_⟩
    · simp only [SelectItem.mapPath, Scope.resolveItem, Scope.resolveAggregate, AggregateExpr.mapPath, hp', ok_bind]
    · simp only [Render.projection, Render.propertyName, same]

theorem resolveGroup (h : t.Rewrites c target g t') {e : PathExpr} {p : Path}
    (hp : (⟨t, some target, []⟩ : Scope).resolveProperty c e = .ok p) :
    ∃ p', (⟨t', some target, []⟩ : Scope).resolveProperty c (g e) = .ok p' ∧
      Render.propertyName t' p' = Render.propertyName t p := by
  obtain ⟨p', hp', same⟩ := h.property [] hp
  exact ⟨p', hp', by simp only [Render.propertyName, same]⟩

theorem resolveOrder (h : t.Rewrites c target g t') {item : OrderItem} {i : ResolvedOrder}
    (hi : (⟨t, some target, [.order]⟩ : Scope).resolveOrder c item = .ok i) :
    ∃ i', (⟨t', some target, [.order]⟩ : Scope).resolveOrder c (item.mapPath g) = .ok i' ∧
      Render.sortField t' i' = Render.sortField t i := by
  obtain ⟨p, hp, hi⟩ := bind_eq_ok.1 hi
  cases hi
  obtain ⟨p', hp', same⟩ := h.property [.order] hp
  refine ⟨⟨p', item.ascending⟩, ?_, ?_⟩
  · simp only [OrderItem.mapPath, Scope.resolveOrder, hp', ok_bind]
  · simp only [Render.sortField, Render.propertyName, same]

theorem resolveOperand (h : t.Rewrites c target g t') {clause : Clause} {o : Operand} {r : ResolvedOperand}
    (hr : (⟨t, some target, []⟩ : Scope).resolveOperand c parameters clause o = .ok r) :
    ∃ r', (⟨t', some target, []⟩ : Scope).resolveOperand c parameters clause (o.mapPath g) = .ok r' := by
  cases o with
  | path e =>
    cases clause with
    | having => cases hr
    | filter =>
      obtain ⟨p, hp, -⟩ := bind_eq_ok.1 hr
      obtain ⟨p', hp', -⟩ := h.property [] hp
      exact ⟨.path p', by simp only [Operand.mapPath, Scope.resolveOperand, hp', ok_bind]⟩
  | aggregate a =>
    cases clause with
    | filter => cases hr
    | having =>
      obtain ⟨path, hpath, -⟩ := bind_eq_ok.1 hr
      obtain ⟨p, hp, -⟩ := bind_eq_ok.1 hpath
      obtain ⟨p', hp', -⟩ := h.property [] hp
      exact ⟨.aggregate ⟨.of a.function a.distinct, p'⟩, by
        simp only [Operand.mapPath, Scope.resolveOperand, Scope.resolveAggregate, AggregateExpr.mapPath, hp', ok_bind]⟩
  | literal l => exact ⟨_, hr⟩
  | named name => exact ⟨_, hr⟩
  | positional n => cases hr

theorem resolveClause (h : t.Rewrites c target g t') {clause : Clause} {w : Option (Condition Operand)}
    {d : Option (Condition ResolvedOperand)}
    (hd : resolveOptional c parameters ⟨t, some target, []⟩ clause w = .ok d) :
    ∃ d', resolveOptional c parameters ⟨t', some target, []⟩ clause (w.map (Condition.map (Operand.mapPath g))) =
      .ok d' := by
  cases w with
  | none => exact ⟨none, rfl⟩
  | some w =>
    obtain ⟨e, he, -⟩ := bind_eq_ok.1 hd
    have each := (Condition.traverse_succeeds w).1 ⟨e, he⟩
    have each' : ∀ o ∈ (w.map (Operand.mapPath g)).operands,
        ∃ r, (⟨t', some target, []⟩ : Scope).resolveOperand c parameters clause o = .ok r := by
      simp only [Condition.operands_map, List.forall_mem_map]
      intro o ho
      obtain ⟨r, hr⟩ := each o ho
      exact h.resolveOperand hr
    obtain ⟨e', he'⟩ := (Condition.traverse_succeeds _).2 each'
    exact ⟨some e', by simp only [Option.map_some, resolveOptional, Scope.resolveCondition, he', ok_bind]⟩

end AliasTable.Rewrites

/-! ## Queries whose references are replaced -/

section

variable {c : Catalog} {parameters : Parameters} {g : PathExpr → PathExpr} {q q' : Statement} {s : ResolvedStatement}

/-- the same clauses, with their references replaced; the FROM clauses need not be alike -/
structure Statement.Mapped (g : PathExpr → PathExpr) (q q' : Statement) : Prop where
  select : q'.select = (q.mapPaths g).select
  filter : q'.filter = (q.mapPaths g).filter
  groupBy : q'.groupBy = (q.mapPaths g).groupBy
  having : q'.having = (q.mapPaths g).having
  orderBy : q'.orderBy = (q.mapPaths g).orderBy

namespace Statement.Mapped

theorem distinct (h : q.Mapped g q') :
    (q'.select.map (·.distinct)).getD false = (q.select.map (·.distinct)).getD false := by
  rw [h.select]
  cases hq : q.select <;> simp [mapPaths, hq]

theorem items (h : q.Mapped g q') :
    (q'.select.map (·.items)).getD [] = ((q.select.map (·.items)).getD []).map (SelectItem.mapPath g) := by
  rw [h.select]
  cases hq : q.select <;> simp [mapPaths, hq]

theorem groups (h : q.Mapped g q') : q'.groupBy.getD [] = (q.groupBy.getD []).map g := by
  rw [h.groupBy]
  cases hq : q.groupBy <;> simp [mapPaths, hq]

theorem orders (h : q.Mapped g q') : q'.orderBy.getD [] = (q.orderBy.getD []).map (OrderItem.mapPath g) := by
  rw [h.orderBy]
  cases hq : q.orderBy <;> simp [mapPaths, hq]

end Statement.Mapped

/-- The parts of two resolved queries give the same parts of a result, conditions left aside. -/
structure ResolvedStatement.Alike (s s' : ResolvedStatement) : Prop where
  target : s'.target = s.target
  distinct : s'.distinct = s.distinct
  items : s'.items.mapM (Render.projection s'.aliases) = s.items.mapM (Render.projection s.aliases)
  sort : s'.orderBy.mapM (Render.sortField s'.aliases) = s.orderBy.mapM (Render.sortField s.aliases)
  groupBy : s'.groupBy.mapM (Render.propertyName s'.aliases) = s.groupBy.mapM (Render.propertyName s.aliases)

/-- **Replaced references resolve** where they are rewritten, and name the same. -/
theorem resolve_rewritten (resolved : q.resolve c parameters = .ok s) (mapped : q.Mapped g q') {front back : Scope}
    (sources : (Scope.initial.enter .sources).addSources c q'.sources = .ok front)
    (joins : front.addJoins c q'.joins = .ok back) (scope : back.leave = ⟨back.aliases, some s.target, []⟩)
    (rewrites : s.aliases.Rewrites c s.target g back.aliases) :
    ∃ s', q'.resolve c parameters = .ok s' ∧ s.Alike s' := by
  obtain ⟨_, _, steps⟩ := Statement.resolve_iff.1 resolved
  obtain ⟨items', hitems, sameItems⟩ := mapM_replaced (fun _ _ => rewrites.resolveItem) steps.items
  obtain ⟨filter', hfilter⟩ := rewrites.resolveClause steps.filter
  obtain ⟨groupBy', hgroup, sameGroup⟩ := mapM_replaced (fun _ _ => rewrites.resolveGroup) steps.groupBy
  obtain ⟨having', hhaving⟩ := rewrites.resolveClause steps.having
  obtain ⟨orderBy', horder, sameOrder⟩ := mapM_replaced (fun _ _ => rewrites.resolveOrder) steps.orderBy
  refine ⟨⟨s.target, s.distinct, items', filter', groupBy', having', orderBy', back.aliases⟩, ?_,
    ⟨rfl, rfl, sameItems, sameOrder, sameGroup⟩⟩
  refine Statement.resolve_iff.2 ⟨front, back, ?_⟩
  exact
    { sources := sources
      joins := joins
      scope := scope
      distinct := mapped.distinct.trans steps.distinct
      items := by rw [mapped.items]; exact hitems
      filter := by rw [mapped.filter]; exact hfilter
      groupBy := by rw [mapped.groups]; exact hgroup
      having := by rw [mapped.having]; exact hhaving
      orderBy := by rw [mapped.orders]; exact horder }

/-- a condition with its operands replaced leaves the same record if they stand for the same -/
theorem recordIfGiven_map {α β : Type} {m : Sense α} {n : Sense β} {h : α → β} (side : ∀ o, n.side (h o) = m.side o)
    (convert : n.convert = m.convert) (entity : String) (w : Option (Condition α)) :
    Condition.recordIfGiven n entity (w.map (Condition.map h)) = Condition.recordIfGiven m entity w := by
  cases w with
  | none => rfl
  | some w =>
    have agree : Condition.Agree (fun o => (.ok (h o) : Except QueryError β)) m n :=
      ⟨fun {a b} hb => by cases hb; exact side a, convert⟩
    exact Condition.traverse_record agree entity w (Condition.traverse_replaced h w)

/-- The queries of the two conditions are the same, and there are none if there are no conditions. -/
def SameHaving {Q : Type} (site : Site Q) (s s' : ResolvedStatement) : Prop :=
  Option.Rel (fun d' d => Render.query site (Clause.having.subject s'.aliases) (some d') =
    Render.query site (Clause.having.subject s.aliases) (some d)) s'.having s.having

theorem ResolvedStatement.Alike.render {Q : Type} {f : Factory Q} {s' : ResolvedStatement} (alike : s.Alike s')
    (filter : Render.query ⟨c, s.target.entity, f⟩ (Clause.filter.subject s'.aliases) s'.filter =
      Render.query ⟨c, s.target.entity, f⟩ (Clause.filter.subject s.aliases) s.filter)
    (having : SameHaving ⟨c, s.target.entity, f⟩ s s') : s'.render c f = s.render c f := by
  have sort := alike.sort
  unfold Render.sortField at sort
  simp only [Clause.subject] at filter
  simp only [ResolvedStatement.render, alike.target, alike.distinct, alike.items, alike.groupBy, filter, sort]
  unfold SameHaving at having
  generalize s'.having = d' at having ⊢
  generalize s.having = d at having ⊢
  cases having with
  | none => rfl
  | some same =>
    simp only [Clause.subject] at same
    simp only [same]

section

variable {s' : ResolvedStatement} (resolves : q.Resolves c parameters s) (resolves' : q'.Resolves c parameters s')
  (target : s'.target = s.target)
  (naming : ∀ e : PathExpr, q'.naming.expand (g e).segments = q.naming.expand e.segments)

include naming in
/-- replaced references stand for the same if they point to the same -/
theorem sense_mapPath (convert : Conversion) (o : Operand) :
    (q'.sense parameters convert).side (o.mapPath g) = (q.sense parameters convert).side o := by
  cases o <;> simp [Statement.sense, Operand.mapPath, AggregateExpr.mapPath, Operand.reference, Operand.given, naming]

include resolves resolves' target naming

/-- the query of a clause is the record of what is written, which replaced references do not change -/
theorem query_rewritten {clause : Clause} {w : Option (Condition Operand)} {d d' : Option (Condition ResolvedOperand)}
    {t : Trace} (hd : resolveOptional c parameters s.scope clause w = .ok d)
    (hd' : resolveOptional c parameters s'.scope clause (w.map (Condition.map (Operand.mapPath g))) = .ok d')
    (ht : Render.query ⟨c, s.target.entity, Trace.factory⟩ (clause.subject s.aliases) d = .ok t) :
    Render.query ⟨c, s.target.entity, Trace.factory⟩ (clause.subject s'.aliases) d' = .ok t := by
  have written := query_written resolves' hd'
  rw [recordIfGiven_map (sense_mapPath naming _) rfl, target] at written
  rw [← toOption_eq_some] at ht ⊢
  rw [written, ← query_written resolves hd, ht]

theorem having_rewritten {w : Option (Condition Operand)} {d d' : Option (Condition ResolvedOperand)} {t : Option Trace}
    (hd : resolveOptional c parameters s.scope .having w = .ok d)
    (hd' : resolveOptional c parameters s'.scope .having (w.map (Condition.map (Operand.mapPath g))) = .ok d')
    (ht : Option.Rel (fun d t => Render.query ⟨c, s.target.entity, Trace.factory⟩
      (Clause.having.subject s.aliases) (some d) = .ok t) d t) :
    Option.Rel (fun d' d =>
      Render.query ⟨c, s.target.entity, Trace.factory⟩ (Clause.having.subject s'.aliases) (some d') =
        Render.query ⟨c, s.target.entity, Trace.factory⟩ (Clause.having.subject s.aliases) (some d)) d' d := by
  cases w with
  | none =>
    cases hd
    cases hd'
    exact .none
  | some w =>
    obtain ⟨e, -, he⟩ := bind_eq_ok.1 hd
    obtain ⟨e', -, he'⟩ := bind_eq_ok.1 hd'
    cases he
    cases he'
    cases ht with
    | some ht => exact .some ((query_rewritten resolves resolves' target naming hd hd' ht).trans ht.symm)

end

/-- **Replaced references render to the same** where they stand for the same. -/
theorem render_rewritten {s' : ResolvedStatement} {r : QueryResult Trace} (resolved : q.resolve c parameters = .ok s)
    (rendered : s.render c Trace.factory = .ok r) (mapped : q.Mapped g q')
    (resolved' : q'.resolve c parameters = .ok s') (alike : s.Alike s')
    (naming : ∀ e : PathExpr, q'.naming.expand (g e).segments = q.naming.expand e.segments) :
    s'.render c Trace.factory = .ok r := by
  have resolves := Statement.resolve_ok resolved
  have resolves' := Statement.resolve_ok resolved'
  have renders := ResolvedStatement.render_ok rendered
  have filter := query_rewritten resolves resolves' alike.target naming resolves.filter
    (by rw [← resolves'.filter, mapped.filter]; rfl) renders.query
  have having := having_rewritten resolves resolves' alike.target naming resolves.having
    (by rw [← resolves'.having, mapped.having]; rfl) renders.having
  rw [alike.render (filter.trans renders.query.symm) having, rendered]

end

end EntitySearch
