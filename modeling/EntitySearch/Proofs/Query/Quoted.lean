/-
Texts between quotes.

A quote in a text is written twice, so behind the opening quote a run of quotes (`Paired`: of even length) stands for
half as many, and the quote that is left over in a run of odd length closes the text (`ClosingQuote`). The reader stops
at that quote and nowhere else (`closingQuote_iff`), whatever comes next, and there is none to stop at just when all
quotes that follow stand in pairs (`quotedRest_eq_none_iff`).

`stringLiteral_exact` puts it together: a text is read from just its own written form, and so nothing in it can close it
early; what is not read has no quote in front, or no quote that closes.
-/
import EntitySearch.Proofs.Query.Literal

namespace EntitySearch.Query

variable {s r before after : List Char} {c : Char}

/-! ## Quotes in pairs -/

/-- each run of quotes in the text is of even length -/
def Paired (s : List Char) : Prop :=
  ∀ front n back, s = front ++ (List.replicate n '\'' ++ back) → front.getLast? ≠ some '\'' →
    back.head? ≠ some '\'' → n % 2 = 0

/-- the quote between the two parts of the text closes it: those before it stand in pairs, and it does not begin one -/
structure ClosingQuote (before after s : List Char) : Prop where
  split : s = before ++ '\'' :: after
  pairs : Paired before
  single : after.head? ≠ some '\''

theorem paired_nil : Paired [] := by
  intro front n back split _ _
  have no_run : n = 0 := by simpa using (List.append_eq_nil_iff.1 (List.append_eq_nil_iff.1 split.symm).2).1
  simp [no_run]

/-- another character is in no run -/
theorem paired_cons (hc : c ≠ '\'') : Paired (c :: s) ↔ Paired s := by
  constructor
  · intro h front n back split hfront hback
    refine h (c :: front) n back (by rw [split, List.cons_append]) ?_ hback
    cases front with
    | nil => simpa using hc
    | cons d front => simpa using hfront
  · intro h front n back split hfront hback
    cases front with
    | nil =>
      cases n with
      | zero => rfl
      | succ n => exact absurd (List.cons.inj split).1 hc
    | cons d front =>
      refine h front n back (List.cons.inj split).2 (fun last => hfront ?_) hback
      rw [List.getLast?_cons, last]
      rfl

/-- two quotes in front make the first run longer by two -/
theorem paired_pair : Paired ('\'' :: '\'' :: s) ↔ Paired s := by
  constructor
  · intro h front n back split hfront hback
    -- a run at the very front is joined by the two quotes, any other stands where it stood
    cases front with
    | nil =>
      have longer := h [] (n + 2) back (by rw [split]; rfl) (by simp) hback
      omega
    | cons d front => exact h ('\'' :: '\'' :: d :: front) n back (by rw [split]; rfl) (by simpa using hfront) hback
  · intro h front n back split hfront hback
    -- no run begins or ends between the two quotes
    match front, n with
    | [], 0 => rfl
    | [], 1 =>
      obtain ⟨-, rfl⟩ := List.cons.inj split
      exact absurd rfl hback
    | [], n + 2 =>
      have shorter := h [] n back (List.cons.inj (List.cons.inj split).2).2 (by simp) hback
      omega
    | [d], n =>
      obtain ⟨rfl, -⟩ := List.cons.inj split
      exact absurd rfl hfront
    | d :: e :: front, n =>
      obtain ⟨-, tails⟩ := List.cons.inj split
      obtain ⟨rfl, same⟩ := List.cons.inj tails
      refine h front n back same (fun last => hfront ?_) hback
      simp [List.getLast?_cons, last]

theorem not_paired_single (hs : s.head? ≠ some '\'') : ¬ Paired ('\'' :: s) := by
  intro h
  have odd := h [] 1 s rfl (by simp) hs
  cases odd

/-- texts by what is in front: a pair of quotes, a quote alone or another character -/
theorem quotes_induct {motive : List Char → Prop} (nil : motive [])
    (pair : ∀ s, motive s → motive ('\'' :: '\'' :: s)) (single : ∀ s, s.head? ≠ some '\'' → motive ('\'' :: s))
    (other : ∀ c s, c ≠ '\'' → motive s → motive (c :: s)) (s : List Char) : motive s := by
  induction s using quotedRest.induct with
  | case1 => exact nil
  | case2 s ih => exact pair s ih
  | case3 s alone =>
    refine single s fun front => ?_
    obtain ⟨rest, rfl⟩ := List.head?_eq_some_iff.1 front
    exact alone rest rfl
  | case4 c s _ notQuote ih => exact other c s notQuote ih

/-- quotes that stand in pairs are those of a written text -/
theorem paired_iff_doubled : Paired s ↔ ∃ l, s = doubled l := by
  constructor
  · intro h
    induction s using quotes_induct with
    | nil => exact ⟨[], rfl⟩
    | pair s ih =>
      obtain ⟨l, rfl⟩ := ih (paired_pair.1 h)
      exact ⟨'\'' :: l, rfl⟩
    | single s hs => exact absurd h (not_paired_single hs)
    | other c s hc ih =>
      obtain ⟨l, rfl⟩ := ih ((paired_cons hc).1 h)
      exact ⟨c :: l, (doubled_other hc).symm⟩
  · rintro ⟨l, rfl⟩
    induction l with
    | nil => exact paired_nil
    | cons c l ih =>
      by_cases hc : c = '\''
      · subst hc
        exact paired_pair.2 ih
      · rw [doubled_other hc]
        exact (paired_cons hc).2 ih

/-! ## Where reading stops -/

/-- what stands between quotes, the other way round -/
theorem quotedRest_eq_some {l : List Char} (h : quotedRest s = some (l, r)) :
    s = doubled l ++ '\'' :: r ∧ r.head? ≠ some '\'' := by
  induction s using quotes_induct generalizing l with
  | nil => cases h
  | pair s ih =>
    obtain ⟨⟨inner, rest⟩, hinner, same⟩ := Option.map_eq_some_iff.1 h
    cases same
    obtain ⟨rfl, hr⟩ := ih hinner
    exact ⟨rfl, hr⟩
  | single s hs =>
    rw [quotedRest_single hs] at h
    cases h
    exact ⟨rfl, hs⟩
  | other c s hc ih =>
    rw [quotedRest_other hc] at h
    obtain ⟨⟨inner, rest⟩, hinner, same⟩ := Option.map_eq_some_iff.1 h
    cases same
    obtain ⟨rfl, hr⟩ := ih hinner
    exact ⟨by rw [doubled_other hc, List.cons_append], hr⟩

/-- reading stops at the closing quote and at no other -/
theorem closingQuote_iff :
    ClosingQuote before after s ↔ ∃ l, before = doubled l ∧ quotedRest s = some (l, after) := by
  constructor
  · rintro ⟨rfl, pairs, single⟩
    obtain ⟨l, rfl⟩ := paired_iff_doubled.1 pairs
    exact ⟨l, rfl, quotedRest_doubled l single⟩
  · rintro ⟨l, rfl, h⟩
    obtain ⟨split, single⟩ := quotedRest_eq_some h
    exact ⟨split, paired_iff_doubled.2 ⟨l, rfl⟩, single⟩

/-- there is no end when all quotes stand in pairs, up to the end of the text -/
theorem quotedRest_eq_none_iff : quotedRest s = none ↔ Paired s := by
  induction s using quotes_induct with
  | nil => exact iff_of_true rfl paired_nil
  | pair s ih => rw [quotedRest_pair, Option.map_eq_none_iff, ih, paired_pair]
  | single s hs =>
    rw [quotedRest_single hs]
    exact iff_of_false (Option.some_ne_none _) (not_paired_single hs)
  | other c s hc ih => rw [quotedRest_other hc, Option.map_eq_none_iff, ih, paired_cons hc]

theorem paired_iff_no_closing : Paired s ↔ ∀ before after, ¬ ClosingQuote before after s := by
  rw [← quotedRest_eq_none_iff]
  constructor
  · intro h before after closing
    obtain ⟨l, -, read⟩ := closingQuote_iff.1 closing
    rw [h] at read
    cases read
  · intro h
    by_contra hs
    obtain ⟨⟨l, rest⟩, read⟩ := Option.ne_none_iff_exists'.1 hs
    exact h _ _ (closingQuote_iff.2 ⟨l, rfl, read⟩)

/-! ## Literals -/

section

variable {x : String} {fault : Fault}

theorem stringLiteral_eq_ok :
    stringLiteral s = .ok x r ↔ s = '\'' :: (doubled x.toList ++ '\'' :: r) ∧ r.head? ≠ some '\'' := by
  constructor
  · intro h
    unfold stringLiteral at h
    split at h
    · split at h
      · cases h
        obtain ⟨rfl, hr⟩ := quotedRest_eq_some ‹_›
        simp [hr]
      · cases h
    · cases h
  · rintro ⟨rfl, hr⟩
    simp [stringLiteral, quotedRest_doubled _ hr]

/-- **A text without an end** is a final fault at the opening quote; it is one whose further quotes stand in pairs. -/
theorem stringLiteral_eq_fail :
    stringLiteral s = .fail fault ↔ ∃ t, s = '\'' :: t ∧ Paired t ∧ fault = ⟨s, [.unterminated]⟩ := by
  constructor
  · intro h
    unfold stringLiteral at h
    split at h
    · split at h
      · cases h
      · cases h
        exact ⟨_, rfl, quotedRest_eq_none_iff.1 ‹_›, rfl⟩
    · cases h
  · rintro ⟨t, rfl, pairs, rfl⟩
    rw [stringLiteral, quotedRest_eq_none_iff.2 pairs]

theorem stringLiteral_misses_iff : Misses stringLiteral s ↔ s.head? ≠ some '\'' := by
  refine ⟨fun missed front => ?_, stringLiteral_misses⟩
  obtain ⟨rest, rfl⟩ := List.head?_eq_some_iff.1 front
  obtain ⟨fault, h⟩ := missed
  rw [stringLiteral] at h
  split at h <;> cases h

end

/-- **Texts read back, and nothing breaks out of them.** A text is read, with the rest left as it is, just where it
stands between quotes with every quote in it doubled and no further quote behind; and reading goes wrong just where there
is no quote in front or none that closes the text. -/
theorem stringLiteral_exact (s : List Char) :
    (∀ x r, stringLiteral s = .ok x r ↔
      s = '\'' :: (doubled x.toList ++ '\'' :: r) ∧ r.head? ≠ some '\'') ∧
    ((∃ fault, stringLiteral s = .miss fault ∨ stringLiteral s = .fail fault) ↔
      s.head? ≠ some '\'' ∨ ∀ before after, ¬ ClosingQuote before after s.tail) := by
  refine ⟨fun x r => stringLiteral_eq_ok, ?_⟩
  -- a miss is a text with no quote in front, a final fault one with no quote that closes
  rw [← stringLiteral_misses_iff, ← paired_iff_no_closing, exists_or]
  constructor
  · rintro (missed | ⟨fault, failed⟩)
    · exact .inl missed
    · obtain ⟨t, rfl, pairs, -⟩ := stringLiteral_eq_fail.1 failed
      exact .inr pairs
  · rintro (missed | pairs)
    · exact .inl missed
    · by_cases front : s.head? = some '\''
      · obtain ⟨t, rfl⟩ := List.head?_eq_some_iff.1 front
        exact .inr ⟨_, stringLiteral_eq_fail.2 ⟨t, rfl, pairs, rfl⟩⟩
      · exact .inl (stringLiteral_misses_iff.2 front)

example : stringLiteral "'x'' or 1 = 1' and".toList = .ok "x' or 1 = 1" " and".toList := by rfl

end EntitySearch.Query
