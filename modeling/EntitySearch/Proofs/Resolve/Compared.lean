/-
Operands that are compared with each other.

`Condition.compared` pairs the two sides of a comparison, either way round, the operand of a range with its bounds, and
that of a list with the values. Replacing operands replaces them in the pairs (`compared_map`), and resolving a
condition resolves its pairs, one by one (`traverse_compared`).
-/
import EntitySearch.Proofs.Resolve.Traverse

namespace EntitySearch

namespace Condition

variable {α β ε : Type}

mutual

/-- each operand with those that it is compared with -/
def compared : Condition α → List (α × α)
  | .and cs => comparedIn cs
  | .or cs => comparedIn cs
  | .not c => compared c
  | .compare _ left right => [(left, right), (right, left)]
  | .between operand lower upper _ => [(operand, lower), (operand, upper)]
  | .among operand values _ => values.map fun v => (operand, v)
  | .like .. => []
  | .isNull .. => []

def comparedIn : List (Condition α) → List (α × α)
  | [] => []
  | c :: rest => compared c ++ comparedIn rest

end

mutual

/-- what is compared are operands -/
theorem compared_operands {a b : α} : ∀ c : Condition α, (a, b) ∈ c.compared → a ∈ c.operands ∧ b ∈ c.operands
  | .and cs, h => comparedIn_operands cs h
  | .or cs, h => comparedIn_operands cs h
  | .not c, h => compared_operands c h
  | .compare r left right, h => by
    simp only [compared, List.mem_cons, Prod.mk.injEq, List.not_mem_nil, or_false] at h
    rcases h with ⟨rfl, rfl⟩ | ⟨rfl, rfl⟩ <;> simp [operands]
  | .between operand lower upper negated, h => by
    simp only [compared, List.mem_cons, Prod.mk.injEq, List.not_mem_nil, or_false] at h
    rcases h with ⟨rfl, rfl⟩ | ⟨rfl, rfl⟩ <;> simp [operands]
  | .among operand values negated, h => by
    simp only [compared, List.mem_map, Prod.mk.injEq] at h
    obtain ⟨v, hv, rfl, rfl⟩ := h
    simp [operands, hv]
  | .like .., h => nomatch h
  | .isNull .., h => nomatch h

theorem comparedIn_operands {a b : α} :
    ∀ cs : List (Condition α), (a, b) ∈ comparedIn cs → a ∈ operandsOf cs ∧ b ∈ operandsOf cs
  | [], h => nomatch h
  | c :: rest, h => by
    simp only [operandsOf, List.mem_append]
    rcases List.mem_append.1 h with h | h
    · exact (compared_operands c h).imp .inl .inl
    · exact (comparedIn_operands rest h).imp .inr .inr

end

mutual

theorem compared_map (g : α → β) : ∀ c : Condition α, (c.map g).compared = c.compared.map (Prod.map g g)
  | .and cs => by rw [map, compared, compared, comparedIn_mapAll g cs]
  | .or cs => by rw [map, compared, compared, comparedIn_mapAll g cs]
  | .not c => by rw [map, compared, compared, compared_map g c]
  | .compare .. => rfl
  | .between .. => rfl
  | .among operand values negated => by simp [map, compared]
  | .like .. => rfl
  | .isNull .. => rfl

theorem comparedIn_mapAll (g : α → β) : ∀ cs : List (Condition α),
    comparedIn (mapAll g cs) = (comparedIn cs).map (Prod.map g g)
  | [] => rfl
  | c :: rest => by rw [mapAll, comparedIn, comparedIn, compared_map g c, comparedIn_mapAll g rest, List.map_append]

end

/-- both operands of a pair are resolved -/
def ResolvedPair (f : α → Except ε β) (x : α × α) (y : β × β) : Prop := f x.1 = .ok y.1 ∧ f x.2 = .ok y.2

mutual

/-- **What is compared stays so** when it is resolved, pair by pair. -/
theorem traverse_compared {f : α → Except ε β} : ∀ (c : Condition α) {d : Condition β}, traverse f c = .ok d →
    List.Forall₂ (ResolvedPair f) c.compared d.compared
  | .and cs, d, h => by
    obtain ⟨ds, hds, h⟩ := bind_eq_ok.1 h
    cases h
    exact traverseAll_compared cs hds
  | .or cs, d, h => by
    obtain ⟨ds, hds, h⟩ := bind_eq_ok.1 h
    cases h
    exact traverseAll_compared cs hds
  | .not c, d, h => by
    obtain ⟨d', hd, h⟩ := bind_eq_ok.1 h
    cases h
    show List.Forall₂ (ResolvedPair f) c.compared d'.compared
    exact traverse_compared c hd
  | .compare r left right, d, h => by
    simp only [traverse, bind_eq_ok, Except.ok.injEq] at h
    obtain ⟨l, hl, r', hr, rfl⟩ := h
    exact .cons ⟨hl, hr⟩ (.cons ⟨hr, hl⟩ .nil)
  | .between operand lower upper negated, d, h => by
    simp only [traverse, bind_eq_ok, Except.ok.injEq] at h
    obtain ⟨o, ho, l, hl, u, hu, rfl⟩ := h
    exact .cons ⟨ho, hl⟩ (.cons ⟨ho, hu⟩ .nil)
  | .among operand values negated, d, h => by
    simp only [traverse, bind_eq_ok, Except.ok.injEq, mapM_eq_ok] at h
    obtain ⟨o, ho, vs, hvs, rfl⟩ := h
    rw [compared, compared, List.forall₂_map_left_iff, List.forall₂_map_right_iff]
    exact hvs.imp fun _ _ hv => ⟨ho, hv⟩
  | .like operand pattern escape negated, d, h => by
    simp only [traverse, bind_eq_ok, Except.ok.injEq] at h
    obtain ⟨o, -, p, -, rfl⟩ := h
    exact .nil
  | .isNull operand negated, d, h => by
    simp only [traverse, bind_eq_ok, Except.ok.injEq] at h
    obtain ⟨o, -, rfl⟩ := h
    exact .nil

theorem traverseAll_compared {f : α → Except ε β} : ∀ (cs : List (Condition α)) {ds : List (Condition β)},
    traverseAll f cs = .ok ds → List.Forall₂ (ResolvedPair f) (comparedIn cs) (comparedIn ds)
  | [], ds, h => by
    cases h
    exact .nil
  | c :: rest, ds, h => by
    simp only [traverseAll, bind_eq_ok, Except.ok.injEq] at h
    obtain ⟨d, hd, es, hes, rfl⟩ := h
    exact List.rel_append (traverse_compared c hd) (traverseAll_compared rest hes)

end

end Condition

end EntitySearch
