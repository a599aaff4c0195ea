/-
When readers succeed and when they miss.

For each way to put readers together: it has read a value just when its parts have, and it has missed just when they
have. A reader that `Settles` never leaves a text to another alternative.
-/
import EntitySearch.Proofs.Query.Stop

namespace EntitySearch.Query

open Text

variable {α β : Type} {p q : Reader α} {f : α → Reader β} {a : α} {b : β} {s r : List Char}

/-- the reader never leaves a text to another alternative -/
def Settles (p : Reader α) : Prop := ∀ s, ¬ Misses p s

theorem misses_ne_ok (h : Misses p s) : p s ≠ .ok a r := by
  obtain ⟨fault, h⟩ := h
  simp [h]

theorem followed_eq_ok : followed p f s = .ok b r ↔ ∃ a m, p s = .ok a m ∧ f a m = .ok b r := by
  unfold followed
  cases p s <;> simp [Outcome.andThen]

theorem followed_misses : Misses (followed p f) s ↔ Misses p s ∨ ∃ a m, p s = .ok a m ∧ Misses (f a) m := by
  unfold Misses followed
  cases p s <;> simp [Outcome.andThen]

theorem mapped_eq_ok {f : α → β} : mapped f p s = .ok b r ↔ ∃ a, p s = .ok a r ∧ f a = b := by
  unfold mapped
  cases p s with
  | ok a m => simp only [Outcome.map, Outcome.ok.injEq]; grind
  | miss | fail => simp [Outcome.map]

theorem mapped_misses {f : α → β} : Misses (mapped f p) s ↔ Misses p s := by
  unfold Misses mapped
  cases p s <;> simp [Outcome.map]

theorem either_eq_ok : either p q s = .ok a r ↔ p s = .ok a r ∨ Misses p s ∧ q s = .ok a r := by
  unfold Misses either
  cases p s <;> simp [Outcome.orElse]

theorem either_misses_iff : Misses (either p q) s ↔ Misses p s ∧ Misses q s := by
  unfold Misses either
  cases p s <;> simp [Outcome.orElse]

theorem optional_eq_ok {o : Option α} :
    optional p s = .ok o r ↔ (∃ a, o = some a ∧ p s = .ok a r) ∨ o = none ∧ r = s ∧ Misses p s := by
  unfold Misses optional
  cases p s with
  | ok a m => simp only [Outcome.map, Outcome.orElse, Outcome.ok.injEq]; grind
  | miss => simp only [Outcome.map, Outcome.orElse, Outcome.ok.injEq]; grind
  | fail => simp [Outcome.map, Outcome.orElse]

theorem require_eq_ok {complaint : Complaint} : require complaint p s = .ok a r ↔ p s = .ok a r := by
  unfold require firmly blaming
  cases hp : p s <;> simp [hp, Outcome.firm, Outcome.blame]

/-- what was read may still be refused, with the text before it -/
def checked (refused : α → Bool) (complaints : List Complaint) (p : Reader α) : Reader α := fun s =>
  (p s).andThen fun a rest => if refused a then .miss ⟨s, complaints⟩ else .ok a rest

section

variable {refused : α → Bool} {complaints : List Complaint}

theorem checked_eq_ok : checked refused complaints p s = .ok a r ↔ p s = .ok a r ∧ refused a = false := by
  unfold checked
  cases p s with
  | ok b m =>
    by_cases h : refused b = true
    · simp only [Outcome.andThen, h, if_true, Outcome.ok.injEq]
      grind
    · simp only [Outcome.andThen, h, Outcome.ok.injEq]
      grind
  | miss | fail => simp [Outcome.andThen]

theorem checked_misses : Misses (checked refused complaints p) s ↔
    Misses p s ∨ ∃ a r, p s = .ok a r ∧ refused a = true := by
  unfold Misses checked
  cases p s with
  | ok b m => by_cases h : refused b = true <;> simp [Outcome.andThen, h]
  | miss | fail => simp [Outcome.andThen]

end

theorem many_eq_ok {as : List α} : many p s = .ok as r ↔
    as = [] ∧ r = s ∧ Misses p s ∨
      ∃ a rest m, as = a :: rest ∧ p s = .ok a m ∧ m.length < s.length ∧ many p m = .ok rest r := by
  constructor
  · intro h
    rw [many] at h
    cases hp : p s with
    | ok a m =>
      simp only [hp] at h
      split at h
      · obtain ⟨rest, further, rfl⟩ := (mapped_eq_ok (p := many p) (s := m) (f := (a :: ·))).1 h
        exact .inr ⟨a, rest, m, rfl, rfl, ‹_›, further⟩
      · cases h
    | miss fault =>
      simp only [hp, Outcome.ok.injEq] at h
      exact .inl ⟨h.1.symm, h.2.symm, fault, hp⟩
    | fail fault =>
      simp only [hp] at h
      cases h
  · rintro (⟨rfl, rfl, missed⟩ | ⟨a, rest, m, rfl, hp, shorter, further⟩)
    · exact many_misses missed
    · rw [many_ok hp shorter, further]
      rfl

/-- as many as there are: one more would be missed -/
theorem many_rest {as : List α} (h : many p s = .ok as r) : Misses p r := by
  induction as generalizing s with
  | nil =>
    obtain ⟨-, rfl, missed⟩ | ⟨a, rest, m, hcons, -⟩ := many_eq_ok.1 h
    · exact missed
    · cases hcons
  | cons a as ih =>
    obtain ⟨hnil, -⟩ | ⟨a, rest, m, hcons, -, -, further⟩ := many_eq_ok.1 h
    · cases hnil
    · cases hcons
      exact ih further

/-- further elements of a list are as many elements behind separators as there are -/
theorem separatedTail_eq_many (separator : Reader β) (p : Reader α) :
    separatedTail separator p = many (andRead separator p) := by
  funext s
  induction s using separatedTail.induct separator p with
  | case1 s fault h => rw [separatedTail, many, andRead, followed, h]; rfl
  | case2 s fault h => rw [separatedTail, many, andRead, followed, h]; rfl
  | case3 s b between h fault h' => rw [separatedTail, many, andRead, followed, h]; simp only [Outcome.andThen, h']
  | case4 s b between h fault h' => rw [separatedTail, many, andRead, followed, h]; simp only [Outcome.andThen, h']
  | case5 s b between h a rest h' shorter ih =>
    have element : andRead separator p s = .ok a rest := by rw [andRead_ok h, h']
    rw [separatedTail_ok h h' shorter, many_ok element shorter, ih]
  | case6 s b between h a rest h' longer =>
    rw [separatedTail, many, andRead, followed, h]
    simp only [Outcome.andThen, h', longer, dif_neg, not_false_eq_true]

namespace Settles

theorem give (a : α) : Settles (give a) := fun _ ⟨_, h⟩ => by cases h

theorem followed (hp : Settles p) (hf : ∀ a, Settles (f a)) : Settles (followed p f) := by
  intro s h
  rcases followed_misses.1 h with h | ⟨a, m, -, h⟩
  · exact hp s h
  · exact hf a m h

theorem andRead {q : Reader β} (hp : Settles p) (hq : Settles q) : Settles (andRead p q) := hp.followed fun _ => hq

theorem thenDrop {q : Reader β} (hp : Settles p) (hq : Settles q) : Settles (thenDrop p q) :=
  hp.followed fun a => hq.followed fun _ => .give a

theorem mapped (hp : Settles p) (f : α → β) : Settles (mapped f p) := fun s h => hp s (mapped_misses.1 h)

theorem optional (p : Reader α) : Settles (optional p) := by
  intro s h
  unfold Misses Query.optional at h
  cases hp : p s <;> simp [hp, Outcome.map, Outcome.orElse] at h

theorem present (p : Reader α) : Settles (present p) := (optional p).mapped _

theorem firmly (p : Reader α) : Settles (firmly p) := by
  intro s h
  unfold Misses Query.firmly at h
  cases hp : p s <;> simp [hp, Outcome.firm] at h

theorem require (complaint : Complaint) (p : Reader α) : Settles (require complaint p) := by
  intro s h
  unfold Misses Query.require Query.firmly blaming at h
  cases hp : p s <;> simp [hp, Outcome.firm, Outcome.blame] at h

theorem gaps : Settles gaps := fun _ ⟨_, h⟩ => by cases h

/-- readers that take something never stop over nothing -/
theorem many (shorter : ∀ s r a, p s = .ok a r → r.length < s.length) : Settles (many p) := by
  intro s
  induction s using Query.many.induct p with
  | case1 s fault h =>
    rintro ⟨_, missed⟩
    rw [many_misses ⟨fault, h⟩] at missed
    cases missed
  | case2 s fault h =>
    rintro ⟨_, missed⟩
    rw [Query.many, h] at missed
    cases missed
  | case3 s a rest h lt ih =>
    rintro ⟨fault, missed⟩
    rw [many_ok h lt] at missed
    exact ih ((mapped_misses (f := (a :: ·)) (p := Query.many p)).1 ⟨fault, missed⟩)
  | case4 s a rest h longer => exact absurd (shorter s rest a h) longer

end Settles

end EntitySearch.Query
