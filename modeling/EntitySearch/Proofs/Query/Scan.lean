/-
Texts of tokens, from the front.

`Spells ts s r`: the text `s` is the tokens `ts`, each with all the gaps behind it, and then `r`. This is the form in
which a reader finds a text that is `Laid` out: it starts where a token does, and what it must not run into is the next
token, never a gap. What stands at the front of a text is told by its first character (`Clear`) and by the characters of
names there, their case left aside (`lead`).
-/
import EntitySearch.Proofs.Query.Grammar

namespace EntitySearch

/-! ## Characters -/

namespace Text

variable {c : Char}

theorem isAlpha_bounds (h : c.isAlpha = true) : c.toNat < 128 ∧ c.isDigit = false := by
  simp [Char.isAlpha, Char.isUpper, Char.isLower, Char.isDigit, UInt32.le_iff_toNat_le] at h ⊢
  omega

theorem isDigit_bounds (h : c.isDigit = true) : c.toNat < 128 := by
  simp [Char.isDigit, UInt32.le_iff_toNat_le] at h
  omega

theorem isNameChar_of_isAlpha (h : c.isAlpha = true) : isNameChar c = true := by
  simp [isNameChar, isLetter, (isAlpha_bounds h).1, h]

theorem startsName_of_isAlpha (h : c.isAlpha = true) : startsName c = true := by
  simp [startsName, isLetter, (isAlpha_bounds h).1, h]

theorem isNameChar_of_isDigit (h : c.isDigit = true) : isNameChar c = true := by
  simp [isNameChar, isNumeral, isDigit_bounds h, h]

theorem isNameChar_of_startsName (h : startsName c = true) : isNameChar c = true := by
  simp only [startsName, isNameChar, Bool.or_eq_true] at h ⊢
  exact h.elim (fun h => .inl (.inl h)) .inr

theorem isDigit_of_startsName (h : startsName c = true) : c.isDigit = false := by
  cases hd : c.isDigit with
  | false => rfl
  | true =>
    simp only [startsName, isLetter, isDigit_bounds hd, if_true, Bool.or_eq_true, beq_iff_eq] at h
    rcases h with h | rfl
    · rw [(isAlpha_bounds h).2] at hd
      cases hd
    · exact absurd hd (by decide)

end Text

namespace Query

open Text

/-! ## What stands at the front of a text -/

section

variable {p : Char → Bool} {s t r g : List Char} {c : Char}

theorem clear_nil (p : Char → Bool) : Clear p [] := fun _ h => by cases h

theorem clear_cons : Clear p (c :: s) ↔ p c = false := by simp [Clear]

theorem Clear.takeWhile (h : Clear p s) : s.takeWhile p = [] := by
  cases s with
  | nil => rfl
  | cons c s => simp [clear_cons.1 h]

theorem Clear.dropWhile (h : Clear p s) : s.dropWhile p = s := by
  cases s with
  | nil => rfl
  | cons c s => simp [clear_cons.1 h]

theorem clear_dropWhile (p : Char → Bool) (s : List Char) : Clear p (s.dropWhile p) := fun c hc => by
  simpa [hc] using List.head?_dropWhile_not p s

theorem Clear.any (h : Clear p s) : s.head?.any p = false := by
  cases s with
  | nil => rfl
  | cons c s => simpa using clear_cons.1 h

theorem takeWhile_front (ht : ∀ c ∈ t, p c = true) (hr : Clear p r) : (t ++ r).takeWhile p = t := by
  rw [List.takeWhile_append_of_pos ht, hr.takeWhile, List.append_nil]

theorem dropWhile_front (ht : ∀ c ∈ t, p c = true) (hr : Clear p r) : (t ++ r).dropWhile p = r := by
  rw [List.dropWhile_append_of_pos ht, hr.dropWhile]

/-- the word at the front, its case left aside -/
def lead (s : List Char) : List Char := lower (s.takeWhile isNameChar)

theorem lead_front (ht : ∀ c ∈ t, isNameChar c = true) (hr : Clear isNameChar r) : lead (t ++ r) = lower t := by
  rw [lead, takeWhile_front ht hr]

theorem lead_clear (h : Clear isNameChar s) : lead s = [] := by
  rw [lead, h.takeWhile]
  rfl

end

/-! ## Texts of tokens -/

/-- the text between a token and what comes next: gaps, at least one if they would run together -/
structure Behind (t : Token) (between m : List Char) : Prop where
  gaps : ∃ g, AllGaps g ∧ between = g ++ m
  next : Clear isGap m
  apart : EndsWord t → Clear isNameChar between

/-- tokens, each with all the gaps behind it, and then the rest -/
inductive Spells : List Token → List Char → List Char → Prop where
  | nil (r : List Char) : Spells [] r r
  | cons {t : Token} {ts : List Token} {between m r : List Char} : Behind t between m → Spells ts m r →
      Spells (t :: ts) (t.chars ++ between) r

section

variable {t : Token} {ts us : List Token} {between m s r text : List Char}

theorem Behind.dropWhile (h : Behind t between m) : between.dropWhile isGap = m := by
  obtain ⟨g, hg, rfl⟩ := h.gaps
  exact dropWhile_front hg h.next

/-- what does not begin the next token does not follow the token -/
theorem Behind.clear (h : Behind t between m) {p : Char → Bool} (hp : ∀ c, isGap c = true → p c = false)
    (hm : Clear p m) : Clear p between := by
  obtain ⟨g, hg, rfl⟩ := h.gaps
  cases g with
  | nil => exact hm
  | cons c g => exact clear_cons.2 (hp c (hg c List.mem_cons_self))

theorem Behind.head_ne (h : Behind t between m) {c : Char} (hc : isGap c = false) (hm : m.head? ≠ some c) :
    between.head? ≠ some c := by
  obtain ⟨g, hg, rfl⟩ := h.gaps
  cases g with
  | nil => exact hm
  | cons d g =>
    rintro ⟨⟩
    rw [hg c List.mem_cons_self] at hc
    cases hc

theorem Spells.cons_iff :
    Spells (t :: ts) s r ↔ ∃ between m, s = t.chars ++ between ∧ Behind t between m ∧ Spells ts m r := by
  constructor
  · rintro (_ | ⟨behind, rest⟩)
    exact ⟨_, _, rfl, behind, rest⟩
  · rintro ⟨between, m, rfl, behind, rest⟩
    exact .cons behind rest

theorem Spells.head (h : Spells (t :: ts) s r) : s.head? = some t.first := by
  cases h with
  | cons _ _ => rfl

/-- what stands behind the only token is the rest -/
theorem Spells.single (h : Spells [t] s r) : ∃ between, s = t.chars ++ between ∧ Behind t between r := by
  obtain ⟨between, m, rfl, behind, rest⟩ := Spells.cons_iff.1 h
  cases rest
  exact ⟨between, rfl, behind⟩

theorem Spells.append_iff : Spells (ts ++ us) s r ↔ ∃ m, Spells ts s m ∧ Spells us m r := by
  constructor
  · intro h
    induction ts generalizing s with
    | nil => exact ⟨s, .nil s, h⟩
    | cons t ts ih =>
      cases h with
      | cons behind h =>
        obtain ⟨m, first, second⟩ := ih h
        exact ⟨m, .cons behind first, second⟩
  · rintro ⟨m, first, second⟩
    induction first with
    | nil => exact second
    | cons behind _ ih => exact .cons behind (ih second)

theorem Spells.split (h : Spells (t :: ts) s r) : ∃ m, Spells [t] s m ∧ Spells ts m r :=
  Spells.append_iff.1 (show Spells ([t] ++ ts) s r from h)

theorem Spells.append_nil (h : Spells ts s r) : Spells (ts ++ []) s r := by
  rwa [List.append_nil]

theorem Spells.length_le (h : Spells ts s r) : r.length ≤ s.length := by
  induction h with
  | nil => exact Nat.le_refl _
  | cons behind _ ih =>
    obtain ⟨g, -, rfl⟩ := behind.gaps
    simp only [List.length_append]
    omega

theorem Spells.length_lt (h : Spells (t :: ts) s r) : r.length < s.length := by
  cases h with
  | cons behind h =>
    have := h.length_le
    obtain ⟨g, -, rfl⟩ := behind.gaps
    simp only [Token.chars, List.length_append, List.length_cons]
    omega

/-- a text of tokens does not begin with a gap -/
theorem Spells.clear (h : Spells (t :: ts) s r) : Clear isGap s := by
  cases h with
  | cons _ _ => exact clear_cons.2 t.solid

theorem Spells.clear_rest (h : Spells (t :: ts) s r) : Clear isGap r := by
  induction ts generalizing t s with
  | nil =>
    obtain ⟨between, rfl, behind⟩ := h.single
    exact behind.next
  | cons u us ih =>
    obtain ⟨between, m, rfl, -, rest⟩ := Spells.cons_iff.1 h
    exact ih rest

/-- tokens with a space before each are laid out -/
theorem laid_spaced (ts : List Token) : Laid ts (ts.flatMap fun t => ' ' :: t.chars) := by
  induction ts with
  | nil => exact .nil (List.forall_mem_nil _)
  | cons t ts ih =>
    rw [List.flatMap_cons]
    refine .cons (g := [' ']) (List.forall_mem_singleton.2 rfl) (fun _ => ?_) ih
    cases ts with
    | nil => exact clear_nil _
    | cons u us => exact clear_cons.2 rfl

/-- **Laid out tokens** are spelled, behind the gaps at the front. -/
theorem Laid.spells (h : Laid ts text) : ∃ g s, AllGaps g ∧ text = g ++ s ∧ Clear isGap s ∧ Spells ts s [] := by
  induction h with
  | nil hg => exact ⟨_, [], hg, (List.append_nil _).symm, clear_nil _, .nil []⟩
  | cons hg apart _ ih =>
    obtain ⟨g', s', hg', rfl, next, spells⟩ := ih
    refine ⟨_, _, hg, rfl, clear_cons.2 (Token.solid _), .cons ⟨⟨g', hg', rfl⟩, next, apart⟩ spells⟩

end

end Query

end EntitySearch
