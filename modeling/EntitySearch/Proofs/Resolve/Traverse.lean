/-
Operands taken along the conditions that they stand in.

`Condition.traverse` meets the operands of a condition, which `Condition.operands` lists, and nothing else. So it
succeeds when each of them is resolved (`traverse_succeeds`), what is true of every resolved operand is true throughout
(`traverse_operands`), and replacing operands before it or behind it comes to replacing them one by one
(`traverse_before`, `traverse_map`, `traverse_replaced`).
-/
import EntitySearch.Proofs.Outcome
import EntitySearch.Resolve.Statement

namespace EntitySearch

namespace Condition

variable {α β γ ε : Type}

mutual

/-- the operands of a condition, in order -/
def operands : Condition α → List α
  | .and cs => operandsOf cs
  | .or cs => operandsOf cs
  | .not c => operands c
  | .compare _ left right => [left, right]
  | .between operand lower upper _ => [operand, lower, upper]
  | .among operand values _ => operand :: values
  | .like operand pattern _ _ => [operand, pattern]
  | .isNull operand _ => [operand]

def operandsOf : List (Condition α) → List α
  | [] => []
  | c :: rest => operands c ++ operandsOf rest

end

mutual

/-- the condition with its operands replaced -/
def map (g : α → β) : Condition α → Condition β
  | .and cs => .and (mapAll g cs)
  | .or cs => .or (mapAll g cs)
  | .not c => .not (map g c)
  | .compare r left right => .compare r (g left) (g right)
  | .between operand lower upper negated => .between (g operand) (g lower) (g upper) negated
  | .among operand values negated => .among (g operand) (values.map g) negated
  | .like operand pattern escape negated => .like (g operand) (g pattern) escape negated
  | .isNull operand negated => .isNull (g operand) negated

def mapAll (g : α → β) : List (Condition α) → List (Condition β)
  | [] => []
  | c :: rest => map g c :: mapAll g rest

end

mutual

@[simp] theorem operands_map (g : α → β) : ∀ c : Condition α, (c.map g).operands = c.operands.map g
  | .and cs => by rw [map, operands, operands, operandsOf_mapAll g cs]
  | .or cs => by rw [map, operands, operands, operandsOf_mapAll g cs]
  | .not c => by rw [map, operands, operands, operands_map g c]
  | .compare .. => rfl
  | .between .. => rfl
  | .among .. => rfl
  | .like .. => rfl
  | .isNull .. => rfl

@[simp] theorem operandsOf_mapAll (g : α → β) : ∀ cs : List (Condition α),
    operandsOf (mapAll g cs) = (operandsOf cs).map g
  | [] => rfl
  | c :: rest => by rw [mapAll, operandsOf, operandsOf, operands_map g c, operandsOf_mapAll g rest, List.map_append]

end

mutual

theorem map_congr {g g' : α → β} : ∀ c : Condition α, (∀ o ∈ c.operands, g o = g' o) → c.map g = c.map g'
  | .and cs, h => by rw [map, map, mapAll_congr cs h]
  | .or cs, h => by rw [map, map, mapAll_congr cs h]
  | .not c, h => by rw [map, map, map_congr c h]
  | .compare r left right, h => by
    simp only [operands, List.forall_mem_cons] at h
    rw [map, map, h.1, h.2.1]
  | .between operand lower upper negated, h => by
    simp only [operands, List.forall_mem_cons] at h
    rw [map, map, h.1, h.2.1, h.2.2.1]
  | .among operand values negated, h => by
    simp only [operands, List.forall_mem_cons] at h
    rw [map, map, h.1, List.map_congr_left h.2]
  | .like operand pattern escape negated, h => by
    simp only [operands, List.forall_mem_cons] at h
    rw [map, map, h.1, h.2.1]
  | .isNull operand negated, h => by
    simp only [operands, List.forall_mem_cons] at h
    rw [map, map, h.1]

theorem mapAll_congr {g g' : α → β} : ∀ cs : List (Condition α), (∀ o ∈ operandsOf cs, g o = g' o) →
    mapAll g cs = mapAll g' cs
  | [], _ => rfl
  | c :: rest, h => by
    simp only [operandsOf, List.forall_mem_append] at h
    rw [mapAll, mapAll, map_congr c h.1, mapAll_congr rest h.2]

end

/-! ## Success -/

mutual

/-- what holds of every operand that can be resolved holds of every operand of a resolved condition -/
theorem traverse_operands {f : α → Except ε β} {P : β → Prop} (each : ∀ a b, f a = .ok b → P b) :
    ∀ (c : Condition α) {d : Condition β}, traverse f c = .ok d → ∀ o ∈ d.operands, P o
  | .and cs, d, h => by
    obtain ⟨ds, hds, h⟩ := bind_eq_ok.1 h
    cases h
    exact traverseAll_operands each cs hds
  | .or cs, d, h => by
    obtain ⟨ds, hds, h⟩ := bind_eq_ok.1 h
    cases h
    exact traverseAll_operands each cs hds
  | .not c, d, h => by
    obtain ⟨d', hd, h⟩ := bind_eq_ok.1 h
    cases h
    show ∀ o ∈ d'.operands, P o
    exact traverse_operands each c hd
  | .compare r left right, d, h => by
    simp only [traverse, bind_eq_ok, Except.ok.injEq] at h
    obtain ⟨l, hl, r', hr, rfl⟩ := h
    simp [operands, each _ _ hl, each _ _ hr]
  | .between operand lower upper negated, d, h => by
    simp only [traverse, bind_eq_ok, Except.ok.injEq] at h
    obtain ⟨o, ho, l, hl, u, hu, rfl⟩ := h
    simp [operands, each _ _ ho, each _ _ hl, each _ _ hu]
  | .among operand values negated, d, h => by
    simp only [traverse, bind_eq_ok, Except.ok.injEq, mapM_eq_ok] at h
    obtain ⟨o, ho, vs, hvs, rfl⟩ := h
    have all : ∀ v ∈ vs, P v := fun v hv =>
      let ⟨a, _, ha⟩ := forall₂_right hvs v hv
      each a v ha
    simpa [operands, each _ _ ho] using all
  | .like operand pattern escape negated, d, h => by
    simp only [traverse, bind_eq_ok, Except.ok.injEq] at h
    obtain ⟨o, ho, p, hp, rfl⟩ := h
    simp [operands, each _ _ ho, each _ _ hp]
  | .isNull operand negated, d, h => by
    simp only [traverse, bind_eq_ok, Except.ok.injEq] at h
    obtain ⟨o, ho, rfl⟩ := h
    simp [operands, each _ _ ho]

theorem traverseAll_operands {f : α → Except ε β} {P : β → Prop} (each : ∀ a b, f a = .ok b → P b) :
    ∀ (cs : List (Condition α)) {ds : List (Condition β)}, traverseAll f cs = .ok ds → ∀ o ∈ operandsOf ds, P o
  | [], ds, h => by
    cases h
    simp [operandsOf]
  | c :: rest, ds, h => by
    simp only [traverseAll, bind_eq_ok, Except.ok.injEq] at h
    obtain ⟨d, hd, es, hes, rfl⟩ := h
    simp only [operandsOf, List.mem_append]
    rintro o (ho | ho)
    · exact traverse_operands each c hd o ho
    · exact traverseAll_operands each rest hes o ho

end

mutual

/-- a condition is resolved when each of its operands is -/
theorem traverse_succeeds {f : α → Except ε β} :
    ∀ c : Condition α, (∃ d, traverse f c = .ok d) ↔ ∀ o ∈ c.operands, ∃ b, f o = .ok b
  | .and cs => by
    rw [operands, ← traverseAll_succeeds cs]
    simp only [traverse, bind_eq_ok, Except.ok.injEq, exists_comm, exists_and_left, exists_eq', and_true]
  | .or cs => by
    rw [operands, ← traverseAll_succeeds cs]
    simp only [traverse, bind_eq_ok, Except.ok.injEq, exists_comm, exists_and_left, exists_eq', and_true]
  | .not c => by
    rw [operands, ← traverse_succeeds c]
    simp only [traverse, bind_eq_ok, Except.ok.injEq, exists_comm, exists_and_left, exists_eq', and_true]
  | .compare r left right => by
    simp [traverse, bind_eq_ok, operands]
  | .between operand lower upper negated => by
    simp [traverse, bind_eq_ok, operands]
  | .among operand values negated => by
    simp [traverse, bind_eq_ok, operands, mapM_succeeds]
  | .like operand pattern escape negated => by
    simp [traverse, bind_eq_ok, operands]
  | .isNull operand negated => by
    simp [traverse, bind_eq_ok, operands]

theorem traverseAll_succeeds {f : α → Except ε β} :
    ∀ cs : List (Condition α), (∃ ds, traverseAll f cs = .ok ds) ↔ ∀ o ∈ operandsOf cs, ∃ b, f o = .ok b
  | [] => by simp [traverseAll, operandsOf]
  | c :: rest => by
    simp only [operandsOf, List.forall_mem_append, ← traverse_succeeds c, ← traverseAll_succeeds rest]
    simp [traverseAll, bind_eq_ok]

end

/-! ## Operands replaced -/

mutual

/-- operands replaced behind the resolution -/
theorem traverse_map {f : α → Except ε β} {f' : α → Except ε γ} {g : β → γ} : ∀ c : Condition α,
    (∀ o ∈ c.operands, f' o = (f o).map g) → traverse f' c = (traverse f c).map (map g)
  | .and cs, h => by
    rw [traverse, traverse, traverseAll_map cs h]
    cases traverseAll f cs <;> rfl
  | .or cs, h => by
    rw [traverse, traverse, traverseAll_map cs h]
    cases traverseAll f cs <;> rfl
  | .not c, h => by
    rw [traverse, traverse, traverse_map c h]
    cases traverse f c <;> rfl
  | .compare r left right, h => by
    simp only [operands, List.forall_mem_cons] at h
    obtain ⟨hl, hr, -⟩ := h
    rw [traverse, traverse, hl, hr]
    cases f left with
    | error e => rfl
    | ok l => cases f right <;> rfl
  | .between operand lower upper negated, h => by
    simp only [operands, List.forall_mem_cons] at h
    obtain ⟨ho, hl, hu, -⟩ := h
    rw [traverse, traverse, ho, hl, hu]
    cases f operand with
    | error e => rfl
    | ok o =>
      cases f lower with
      | error e => rfl
      | ok l => cases f upper <;> rfl
  | .among operand values negated, h => by
    simp only [operands, List.forall_mem_cons] at h
    obtain ⟨ho, hvs⟩ := h
    rw [traverse, traverse, ho, mapM_map hvs]
    cases f operand with
    | error e => rfl
    | ok o => cases values.mapM f <;> rfl
  | .like operand pattern escape negated, h => by
    simp only [operands, List.forall_mem_cons] at h
    obtain ⟨ho, hp, -⟩ := h
    rw [traverse, traverse, ho, hp]
    cases f operand with
    | error e => rfl
    | ok o => cases f pattern <;> rfl
  | .isNull operand negated, h => by
    simp only [operands, List.forall_mem_cons] at h
    rw [traverse, traverse, h.1]
    cases f operand <;> rfl

theorem traverseAll_map {f : α → Except ε β} {f' : α → Except ε γ} {g : β → γ} : ∀ cs : List (Condition α),
    (∀ o ∈ operandsOf cs, f' o = (f o).map g) → traverseAll f' cs = (traverseAll f cs).map (mapAll g)
  | [], _ => rfl
  | c :: rest, h => by
    simp only [operandsOf, List.forall_mem_append] at h
    rw [traverseAll, traverseAll, traverse_map c h.1, traverseAll_map rest h.2]
    cases traverse f c with
    | error e => rfl
    | ok d => cases traverseAll f rest <;> rfl

end

mutual

/-- operands that are only replaced -/
theorem traverse_replaced (g : α → β) : ∀ c : Condition α,
    traverse (fun o => (.ok (g o) : Except ε β)) c = .ok (c.map g)
  | .and cs => by rw [traverse, traverseAll_replaced g cs, map]; rfl
  | .or cs => by rw [traverse, traverseAll_replaced g cs, map]; rfl
  | .not c => by rw [traverse, traverse_replaced g c, map]; rfl
  | .compare .. => rfl
  | .between .. => rfl
  | .among operand values negated => by
    have all : values.mapM (fun o => (.ok (g o) : Except ε β)) = .ok (values.map g) :=
      mapM_eq_ok.2 (by induction values <;> simp_all)
    rw [traverse, all, map]
    rfl
  | .like .. => rfl
  | .isNull .. => rfl

theorem traverseAll_replaced (g : α → β) : ∀ cs : List (Condition α),
    traverseAll (fun o => (.ok (g o) : Except ε β)) cs = .ok (mapAll g cs)
  | [] => rfl
  | c :: rest => by rw [traverseAll, traverse_replaced g c, traverseAll_replaced g rest, mapAll]; rfl

end

mutual

/-- operands replaced before the resolution -/
theorem traverse_before (f : β → Except ε γ) (g : α → β) : ∀ c : Condition α,
    traverse f (c.map g) = traverse (fun o => f (g o)) c
  | .and cs => by rw [map, traverse, traverse, traverseAll_before f g cs]
  | .or cs => by rw [map, traverse, traverse, traverseAll_before f g cs]
  | .not c => by rw [map, traverse, traverse, traverse_before f g c]
  | .compare .. => rfl
  | .between .. => rfl
  | .among operand values negated => by
    rw [map, traverse, traverse, List.mapM_map]
    rfl
  | .like .. => rfl
  | .isNull .. => rfl

theorem traverseAll_before (f : β → Except ε γ) (g : α → β) : ∀ cs : List (Condition α),
    traverseAll f (mapAll g cs) = traverseAll (fun o => f (g o)) cs
  | [] => rfl
  | c :: rest => by rw [mapAll, traverseAll, traverseAll, traverse_before f g c, traverseAll_before f g rest]

end

end Condition

/-! ## Whole queries -/

/-- the resolved query with the operands of its conditions replaced -/
def ResolvedStatement.mapOperands (k : ResolvedOperand → ResolvedOperand) (s : ResolvedStatement) : ResolvedStatement :=
  { s with filter := s.filter.map (Condition.map k), having := s.having.map (Condition.map k) }

section

variable {c : Catalog} {ps ps' : Parameters} {k : ResolvedOperand → ResolvedOperand}

/-- a condition whose operands are resolved to replaced ones -/
theorem resolveOptional_map {s : Scope} {clause : Clause} {g : Operand → Operand} (w : Option (Condition Operand))
    (each : ∀ v ∈ w, ∀ o ∈ v.operands,
      s.resolveOperand c ps' clause (g o) = (s.resolveOperand c ps clause o).map k) :
    resolveOptional c ps' s clause (w.map (Condition.map g)) =
      (resolveOptional c ps s clause w).map (Option.map (Condition.map k)) := by
  cases w with
  | none => rfl
  | some w =>
    simp only [resolveOptional, Option.map_some, Scope.resolveCondition, Condition.traverse_before,
      Condition.traverse_map w (each w rfl)]
    cases w.traverse (s.resolveOperand c ps clause) <;> rfl

/-- **Conditions are resolved apart from the rest of the query**: if those of another query are resolved to these with
their operands replaced, so is that query. -/
theorem Statement.resolve_conditions (q : Statement) {filter having : Option (Condition Operand)}
    (filtered : ∀ s : Scope, resolveOptional c ps' s .filter filter =
      (resolveOptional c ps s .filter q.filter).map (Option.map (Condition.map k)))
    (grouped : ∀ s : Scope, resolveOptional c ps' s .having having =
      (resolveOptional c ps s .having q.having).map (Option.map (Condition.map k))) :
    ({ q with filter, having } : Statement).resolve c ps' =
      (q.resolve c ps).map (ResolvedStatement.mapOperands k) := by
  simp only [Statement.resolve]
  refine SameOutcome.iff_map.1 ?_
  refine .bind_same _ fun s => ?_
  refine .bind_same _ fun s => ?_
  refine .bind_same _ fun items => ?_
  refine .bind_map (filtered _) fun filter => ?_
  refine .bind_same _ fun groupBy => ?_
  refine .bind_map (grouped _) fun having => ?_
  refine .bind_same _ fun orderBy => ?_
  split
  · exact .error _
  · exact .ok rfl

end

end EntitySearch
