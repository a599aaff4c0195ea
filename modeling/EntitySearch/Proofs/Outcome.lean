/-
Computations that may fail, taken apart.

A `do` block over `Except` succeeds when each of its steps does, and fails with the fault of the first step that fails;
the same holds of a function taken along a list. Every other module opens its computations with these laws. `FailsOnly`
bounds the faults that a computation can end in, step by step, and `SameOutcome` sets two computations side by side.
-/
import Mathlib.Data.List.Forall2

namespace EntitySearch

variable {ε α β γ : Type}

theorem ok_bind (a : α) (f : α → Except ε β) : (Except.ok a >>= f) = f a := rfl

theorem bind_eq_ok {x : Except ε α} {f : α → Except ε β} {b : β} :
    (x >>= f) = .ok b ↔ ∃ a, x = .ok a ∧ f a = .ok b := by
  cases x with
  | error e => simp [bind, Except.bind]
  | ok a => simp [bind, Except.bind]

theorem bind_eq_error {x : Except ε α} {f : α → Except ε β} {e : ε} :
    (x >>= f) = .error e ↔ x = .error e ∨ ∃ a, x = .ok a ∧ f a = .error e := by
  cases x with
  | error e' => simp [bind, Except.bind]
  | ok a => simp [bind, Except.bind]

/-- a fault at the end, whatever is said in it -/
theorem bind_error_ne_ok {x : Except ε α} {g : α → ε} {b : β} : (x >>= fun a => .error (g a)) ≠ .ok b := by
  simp [bind_eq_ok]

theorem map_eq_ok {x : Except ε α} {f : α → β} {b : β} : x.map f = .ok b ↔ ∃ a, x = .ok a ∧ f a = b := by
  cases x with
  | error e => simp [Except.map]
  | ok a => simp [Except.map]

theorem map_eq_error {x : Except ε α} {f : α → β} {e : ε} : x.map f = .error e ↔ x = .error e := by
  cases x with
  | error e' => simp [Except.map]
  | ok a => simp [Except.map]

theorem toOption_bind (x : Except ε α) (f : α → Except ε β) :
    (x >>= f).toOption = x.toOption.bind fun a => (f a).toOption := by
  cases x <;> rfl

theorem toOption_map (x : Except ε α) (f : α → β) : (x.map f).toOption = x.toOption.map f := by
  cases x <;> rfl

theorem toOption_eq_some {x : Except ε α} {a : α} : x.toOption = some a ↔ x = .ok a := by
  cases x <;> simp [Except.toOption]

theorem toOption_eq_none {x : Except ε α} (h : ∀ a, x ≠ .ok a) : x.toOption = none := by
  cases x with
  | error e => rfl
  | ok a => exact absurd rfl (h a)

theorem mapM_eq_ok {f : α → Except ε β} {xs : List α} {ys : List β} :
    xs.mapM f = .ok ys ↔ List.Forall₂ (fun x y => f x = .ok y) xs ys := by
  induction xs generalizing ys with
  | nil => simp [pure, Except.pure, eq_comm]
  | cons x xs ih =>
    simp only [List.mapM_cons, bind_eq_ok, ih, pure, Except.pure, Except.ok.injEq]
    constructor
    · rintro ⟨y, hy, zs, hzs, rfl⟩
      exact .cons hy hzs
    · intro h
      cases h with
      | cons hy hzs => exact ⟨_, hy, _, hzs, rfl⟩

theorem mapM_succeeds {f : α → Except ε β} {xs : List α} :
    (∃ ys, xs.mapM f = .ok ys) ↔ ∀ x ∈ xs, ∃ y, f x = .ok y := by
  induction xs with
  | nil => simp [pure, Except.pure]
  | cons x xs ih => simp [List.mapM_cons, bind_eq_ok, pure, Except.pure, ih]

/-- results replaced one by one -/
theorem mapM_map {f : α → Except ε β} {f' : α → Except ε γ} {g : β → γ} {xs : List α}
    (h : ∀ x ∈ xs, f' x = (f x).map g) : xs.mapM f' = (xs.mapM f).map (List.map g) := by
  induction xs with
  | nil => rfl
  | cons x xs ih =>
    simp only [List.forall_mem_cons] at h
    simp only [List.mapM_cons, h.1, ih h.2]
    cases f x with
    | error e => rfl
    | ok y => cases xs.mapM f <;> rfl

/-- results that are all there, taken further one by one -/
theorem mapM_further {f : α → Except ε β} {xs : List α} {ys : List β} (h : xs.mapM f = .ok ys) (g : β → Except ε γ) :
    ys.mapM g = xs.mapM fun x => f x >>= g := by
  rw [mapM_eq_ok] at h
  induction h with
  | nil => rfl
  | cons hxy _ ih => simp only [List.mapM_cons, hxy, ok_bind, ih]

/-- arguments replaced one by one, so that the results cannot be told apart -/
theorem mapM_replaced {α' β' : Type} {f : α → Except ε β} {f' : α' → Except ε β'} {g : α → α'} {h : β → Except ε γ}
    {h' : β' → Except ε γ} (step : ∀ x y, f x = .ok y → ∃ y', f' (g x) = .ok y' ∧ h' y' = h y) {xs : List α}
    {ys : List β} (hys : xs.mapM f = .ok ys) : ∃ ys', (xs.map g).mapM f' = .ok ys' ∧ ys'.mapM h' = ys.mapM h := by
  induction xs generalizing ys with
  | nil =>
    cases hys
    exact ⟨[], rfl, rfl⟩
  | cons x xs ih =>
    simp only [List.mapM_cons, bind_eq_ok, pure, Except.pure, Except.ok.injEq] at hys
    obtain ⟨y, hy, zs, hzs, rfl⟩ := hys
    obtain ⟨y', hy', same⟩ := step x y hy
    obtain ⟨zs', hzs', sames⟩ := ih hzs
    refine ⟨y' :: zs', ?_, ?_⟩
    · rw [List.map_cons, List.mapM_cons, hy', ok_bind, hzs']
      rfl
    · rw [List.mapM_cons, List.mapM_cons, same, sames]

theorem forall₂_right {R : α → β → Prop} {xs : List α} {ys : List β} (h : List.Forall₂ R xs ys) :
    ∀ y ∈ ys, ∃ x ∈ xs, R x y := by
  induction h with
  | nil => simp
  | cons hxy _ ih =>
    refine List.forall_mem_cons.2 ⟨⟨_, List.mem_cons_self, hxy⟩, fun y hy => ?_⟩
    obtain ⟨x, hx, hxy⟩ := ih y hy
    exact ⟨x, List.mem_cons_of_mem _ hx, hxy⟩

/-- relations one after the other, element by element -/
theorem forall₂_chain {R : α → β → Prop} {S : β → γ → Prop} {T : α → γ → Prop} (step : ∀ x y z, R x y → S y z → T x z)
    {xs : List α} {ys : List β} {zs : List γ} (h : List.Forall₂ R xs ys) (h' : List.Forall₂ S ys zs) :
    List.Forall₂ T xs zs := by
  induction h generalizing zs with
  | nil =>
    cases h'
    exact .nil
  | cons hxy _ ih =>
    cases h' with
    | cons hyz hyzs => exact .cons (step _ _ _ hxy hyz) (ih hyzs)

theorem rel_right {R : α → β → Prop} {x : Option α} {y : Option β} (h : Option.Rel R x y) :
    ∀ b ∈ y, ∃ a ∈ x, R a b := by
  cases h with
  | none => simp
  | some hab => simpa using hab

/-- the first element at fault decides how a list of computations fails -/
theorem mapM_eq_error_iff {f : α → Except ε β} {xs : List α} {e : ε} :
    xs.mapM f = .error e ↔
      ∃ before x after, xs = before ++ x :: after ∧ (∀ y ∈ before, ∃ z, f y = .ok z) ∧ f x = .error e := by
  constructor
  · intro h
    induction xs with
    | nil => cases h
    | cons x xs ih =>
      simp only [List.mapM_cons, bind_eq_error, pure, Except.pure] at h
      rcases h with h | ⟨y, hy, h | ⟨zs, -, h⟩⟩
      · exact ⟨[], x, xs, rfl, nofun, h⟩
      · obtain ⟨before, x', after, rfl, sound, hx'⟩ := ih h
        exact ⟨x :: before, x', after, rfl, List.forall_mem_cons.2 ⟨⟨y, hy⟩, sound⟩, hx'⟩
      · cases h
  · rintro ⟨before, x, after, rfl, sound, hx⟩
    obtain ⟨zs, hzs⟩ := mapM_succeeds.2 sound
    rw [List.mapM_append, hzs, ok_bind, List.mapM_cons, hx]
    rfl

theorem mapM_eq_error {f : α → Except ε β} {xs : List α} {e : ε} (h : xs.mapM f = .error e) :
    ∃ x ∈ xs, f x = .error e :=
  let ⟨_, x, _, split, _, hx⟩ := mapM_eq_error_iff.1 h
  ⟨x, split ▸ List.mem_append_right _ List.mem_cons_self, hx⟩

/-- A run that may fail follows one that does not when every step follows its step. -/
theorem foldlM_follows {R : γ → β → Prop} {f : β → α → Except ε β} {g : γ → α → γ}
    (step : ∀ c b a b', R c b → f b a = .ok b' → R (g c a) b') {xs : List α} {c : γ} {b b' : β} (start : R c b)
    (h : xs.foldlM f b = .ok b') : R (xs.foldl g c) b' := by
  induction xs generalizing b c with
  | nil =>
    simp only [List.foldlM_nil, pure, Except.pure, Except.ok.injEq] at h
    exact h ▸ start
  | cons x xs ih =>
    simp only [List.foldlM_cons, bind_eq_ok] at h
    obtain ⟨d, hd, h⟩ := h
    exact ih (step c b x d start hd) h

theorem exists_of_isOk {x : Except ε α} (h : x.isOk = true) : ∃ a, x = .ok a := by
  cases x with
  | error e => cases h
  | ok a => exact ⟨a, rfl⟩

/-! ## Faults of a kind -/

/-- the computation succeeds, or its fault is of a kind -/
def FailsOnly (P : ε → Prop) (x : Except ε α) : Prop := ∀ e, x = .error e → P e

namespace FailsOnly

variable {P : ε → Prop}

theorem ok (a : α) : FailsOnly P (.ok a) := fun _ h => nomatch h

theorem error {e : ε} (h : P e) : FailsOnly P (.error e : Except ε α) := by
  rintro _ ⟨⟩
  exact h

theorem bind {x : Except ε α} {f : α → Except ε β} (hx : FailsOnly P x) (hf : ∀ a, x = .ok a → FailsOnly P (f a)) :
    FailsOnly P (x >>= f) := by
  intro e h
  rcases bind_eq_error.1 h with h | ⟨a, ha, h⟩
  · exact hx e h
  · exact hf a ha e h

theorem map {x : Except ε α} (hx : FailsOnly P x) (f : α → β) : FailsOnly P (x.map f) :=
  fun e h => hx e (map_eq_error.1 h)

theorem mapM {f : α → Except ε β} {xs : List α} (h : ∀ x ∈ xs, FailsOnly P (f x)) : FailsOnly P (xs.mapM f) := by
  intro e he
  obtain ⟨x, hx, hfx⟩ := mapM_eq_error he
  exact h x hx e hfx

theorem cases {x : Except ε α} (h : FailsOnly P x) : (∃ a, x = .ok a) ∨ ∃ e, x = .error e ∧ P e := by
  cases x with
  | ok a => exact .inl ⟨a, rfl⟩
  | error e => exact .inr ⟨e, rfl, h e rfl⟩

end FailsOnly

/-! ## Two computations -/

/-- both computations fail with one fault, or both succeed, with results that are related -/
inductive SameOutcome (R : α → β → Prop) : Except ε α → Except ε β → Prop where
  | ok {a : α} {b : β} (related : R a b) : SameOutcome R (.ok a) (.ok b)
  | error (e : ε) : SameOutcome R (.error e) (.error e)

namespace SameOutcome

variable {α' β' : Type} {R : α → β → Prop} {S : α' → β' → Prop} {x : Except ε α} {y : Except ε β}

theorem refl (x : Except ε α) : SameOutcome Eq x x := by
  cases x with
  | ok a => exact .ok rfl
  | error e => exact .error e

theorem bind {f : α → Except ε α'} {g : β → Except ε β'} (h : SameOutcome R x y)
    (hfg : ∀ a b, R a b → SameOutcome S (f a) (g b)) : SameOutcome S (x >>= f) (y >>= g) := by
  cases h with
  | ok related => exact hfg _ _ related
  | error e => exact .error e

/-- both go on from one result -/
theorem bind_same (x : Except ε α) {f : α → Except ε α'} {g : α → Except ε β'}
    (hfg : ∀ a, SameOutcome S (f a) (g a)) : SameOutcome S (x >>= f) (x >>= g) := by
  cases x with
  | ok a => exact hfg a
  | error e => exact .error e

/-- the one goes on from what is made of the result of the other -/
theorem bind_map {m : β → α} {f : α → Except ε α'} {g : β → Except ε β'} (h : x = y.map m)
    (hfg : ∀ b, SameOutcome S (f (m b)) (g b)) : SameOutcome S (x >>= f) (y >>= g) := by
  subst h
  cases y with
  | ok b => exact hfg b
  | error e => exact .error e

/-- two runs along a list whose steps are the same -/
theorem foldlM {f : α → γ → Except ε α} {g : β → γ → Except ε β} {xs : List γ} {a : α} {b : β} (start : R a b)
    (step : ∀ x ∈ xs, ∀ a b, R a b → SameOutcome R (f a x) (g b x)) :
    SameOutcome R (xs.foldlM f a) (xs.foldlM g b) := by
  induction xs generalizing a b with
  | nil => exact .ok start
  | cons x xs ih =>
    rw [List.forall_mem_cons] at step
    rw [List.foldlM_cons, List.foldlM_cons]
    exact (step.1 a b start).bind fun a' b' related => ih related step.2

/-- goes on from the first to the second -/
theorem bind_eq {f : α → Except ε β} (h : SameOutcome R x y) (hf : ∀ a b, R a b → f a = .ok b) : (x >>= f) = y := by
  cases h with
  | ok related => exact hf _ _ related
  | error e => rfl

/-- what is made of the results is the same, faults left aside -/
theorem toOption_bind {f : α → Option γ} {g : β → Option γ} (h : SameOutcome R x y)
    (hfg : ∀ a b, R a b → f a = g b) : x.toOption.bind f = y.toOption.bind g := by
  cases h with
  | ok related => exact hfg _ _ related
  | error e => rfl

theorem iff_map {f : β → α} : SameOutcome (fun a b => a = f b) x y ↔ x = y.map f := by
  constructor
  · rintro (⟨rfl⟩ | e) <;> rfl
  · rintro rfl
    cases y with
    | ok b => exact .ok rfl
    | error e => exact .error e

end SameOutcome

end EntitySearch
