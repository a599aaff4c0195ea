/-
The texts that patterns fit.

LIKE patterns and wildcard patterns are each read here by their own rules (`likes`, `fits`). A run of characters may end
anywhere in the text, so long as the rest of the pattern fits what is left; a character that stands for itself must be
the next one of the text. `fits_ofLike`: a LIKE pattern and the wildcard pattern written for it fit the same texts,
whatever the escape character is.

`Likes` and `Fits` say the same of patterns and texts without computing anything: the pattern is taken piece by piece,
and every piece has its part of the text. The matchers decide them (`likes_iff`, `fits_iff`), so `Likes` and `Fits` agree
too (`likes_iff_fits`).
-/
import EntitySearch.Backend.Wildcard

namespace EntitySearch.Wildcard

/-- a character of a kind, and the rest behind it -/
def afterOne (kind : Char → Bool) (rest : List Char → Bool) : List Char → Bool
  | [] => false
  | c :: s => kind c && rest s

/-- any number of characters, and the rest behind them -/
def afterRun (rest : List Char → Bool) : List Char → Bool
  | [] => rest []
  | c :: s => rest (c :: s) || afterRun rest s

/-- what a character of a LIKE pattern asks for if it is not escaped: `%` any run of characters, `_` any one -/
def afterUnescaped (c : Char) (rest : List Char → Bool) : List Char → Bool :=
  if c == '%' then afterRun rest
  else if c == '_' then afterOne (fun _ => true) rest
  else afterOne (· == c) rest

/-- the texts that a LIKE pattern fits; the escape character makes the next one stand for itself, and at the end it
stands for itself -/
def likes (escape : Option Char) : List Char → List Char → Bool
  | [], s => s.isEmpty
  | c :: rest, s =>
    if escape == some c then
      match rest with
      | next :: rest => afterOne (· == next) (likes escape rest) s
      | [] => s == [c]
    else afterUnescaped c (likes escape rest) s

/-- the texts that a wildcard pattern fits: `*` is any run of characters, `?` any one, and the backslash makes the next
one stand for itself -/
def fits : List Char → List Char → Bool
  | [], s => s.isEmpty
  | '*' :: rest, s => afterRun (fits rest) s
  | '?' :: rest, s => afterOne (fun _ => true) (fits rest) s
  | '\\' :: c :: rest, s => afterOne (· == c) (fits rest) s
  | c :: rest, s => afterOne (· == c) (fits rest) s

/-- a character written to stand for itself does so -/
theorem fits_literal (c : Char) (rest : List Char) : fits (literal c ++ rest) = afterOne (· == c) (fits rest) := by
  funext s
  unfold literal
  split
  · simp [fits]
  · rename_i h
    simp only [Bool.or_eq_true, beq_iff_eq, not_or] at h
    obtain ⟨⟨star, mark⟩, slash⟩ := h
    rw [List.singleton_append, fits] <;> simp_all

theorem fits_literal_end (c : Char) (s : List Char) : fits (literal c) s = (s == [c]) := by
  have h := congrFun (fits_literal c []) s
  rw [List.append_nil] at h
  rw [h]
  cases s with
  | nil => rfl
  | cons d s => cases s <;> simp [afterOne, fits]

theorem ofLike_unescaped {escape : Option Char} {c : Char} (h : ¬(escape == some c) = true) (rest : List Char) :
    ofLike escape (c :: rest) = unescaped c ++ ofLike escape rest := by
  cases rest <;> simp only [ofLike, if_neg h]

theorem likes_unescaped {escape : Option Char} {c : Char} (h : ¬(escape == some c) = true) (rest : List Char) :
    likes escape (c :: rest) = afterUnescaped c (likes escape rest) := by
  funext s
  cases rest <;> simp only [likes, if_neg h]

/-- **A LIKE pattern and its wildcard pattern fit the same texts.** -/
theorem fits_ofLike (escape : Option Char) (p : List Char) : fits (ofLike escape p) = likes escape p := by
  induction p using ofLike.induct escape with
  | case1 => funext s; simp [ofLike, fits, likes]
  | case2 c h next rest ih =>
    funext s
    rw [ofLike, if_pos h, fits_literal, ih, likes, if_pos h]
  | case3 c h =>
    funext s
    rw [ofLike, if_pos h, fits_literal_end, likes, if_pos h]
  | case4 c rest h ih =>
    rw [ofLike_unescaped h, likes_unescaped h, unescaped, afterUnescaped, ← ih]
    split
    · rfl
    · split
      · rfl
      · exact fits_literal ..

/-! ## Patterns piece by piece -/

/-- The text fits the LIKE pattern. Behind the escape character every character is itself, and so is the escape character
at the end; elsewhere `%` is any run of characters, `_` any one, and every other character is itself. -/
inductive Likes (escape : Option Char) : List Char → List Char → Prop where
  | empty : Likes escape [] []
  | escaped {e c : Char} {p s : List Char} (mark : escape = some e) (rest : Likes escape p s) :
      Likes escape (e :: c :: p) (c :: s)
  | escapeAtEnd {e : Char} (mark : escape = some e) : Likes escape [e] [e]
  | run {p s : List Char} (plain : escape ≠ some '%') (taken : List Char) (rest : Likes escape p s) :
      Likes escape ('%' :: p) (taken ++ s)
  | one {p s : List Char} (plain : escape ≠ some '_') (c : Char) (rest : Likes escape p s) :
      Likes escape ('_' :: p) (c :: s)
  | itself {c : Char} {p s : List Char} (plain : escape ≠ some c) (ordinary : c ≠ '%' ∧ c ≠ '_')
      (rest : Likes escape p s) : Likes escape (c :: p) (c :: s)

/-- The text fits the wildcard pattern. Behind a backslash every character is itself, and so is a backslash at the end;
elsewhere `*` is any run of characters, `?` any one, and every other character is itself. -/
inductive Fits : List Char → List Char → Prop where
  | empty : Fits [] []
  | escaped {c : Char} {p s : List Char} (rest : Fits p s) : Fits ('\\' :: c :: p) (c :: s)
  | slashAtEnd : Fits ['\\'] ['\\']
  | run {p s : List Char} (taken : List Char) (rest : Fits p s) : Fits ('*' :: p) (taken ++ s)
  | one {p s : List Char} (c : Char) (rest : Fits p s) : Fits ('?' :: p) (c :: s)
  | itself {c : Char} {p s : List Char} (ordinary : c ≠ '*' ∧ c ≠ '?' ∧ c ≠ '\\') (rest : Fits p s) :
      Fits (c :: p) (c :: s)

theorem afterOne_iff {kind : Char → Bool} {rest : List Char → Bool} {s : List Char} :
    afterOne kind rest s = true ↔ ∃ c t, s = c :: t ∧ kind c = true ∧ rest t = true := by
  cases s with
  | nil => simp [afterOne]
  | cons c s => simp [afterOne, and_assoc]

theorem afterRun_iff {rest : List Char → Bool} {s : List Char} :
    afterRun rest s = true ↔ ∃ taken t, s = taken ++ t ∧ rest t = true := by
  induction s with
  | nil => simp [afterRun, and_assoc]
  | cons c s ih =>
    rw [afterRun, Bool.or_eq_true, ih]
    constructor
    · rintro (here | ⟨taken, t, rfl, fits⟩)
      · exact ⟨[], c :: s, rfl, here⟩
      · exact ⟨c :: taken, t, rfl, fits⟩
    · rintro ⟨taken, t, split, fits⟩
      cases taken with
      | nil => exact .inl (split ▸ fits)
      | cons d taken =>
        obtain ⟨-, rfl⟩ := List.cons.inj split
        exact .inr ⟨taken, t, rfl, fits⟩

variable {escape : Option Char} {p s : List Char}

theorem Likes.likes (h : Likes escape p s) : likes escape p s = true := by
  induction h with
  | empty => rfl
  | escaped mark _ ih => simpa [Wildcard.likes, mark, afterOne] using ih
  | escapeAtEnd mark => simp [Wildcard.likes, mark]
  | run plain taken _ ih =>
    rw [likes_unescaped (by simpa using plain)]
    exact afterRun_iff.2 ⟨taken, _, rfl, ih⟩
  | one plain c _ ih =>
    rw [likes_unescaped (by simpa using plain)]
    exact ih
  | itself plain ordinary _ ih =>
    rw [likes_unescaped (by simpa using plain)]
    simpa [afterUnescaped, ordinary, afterOne] using ih

theorem likes_iff : likes escape p s = true ↔ Likes escape p s := by
  refine ⟨fun h => ?_, Likes.likes⟩
  induction p using ofLike.induct escape generalizing s with
  | case1 =>
    cases List.isEmpty_iff.1 h
    exact .empty
  | case2 e mark c rest ih =>
    rw [likes, if_pos mark] at h
    obtain ⟨d, t, rfl, same, fits⟩ := afterOne_iff.1 h
    cases beq_iff_eq.1 same
    exact .escaped (beq_iff_eq.1 mark) (ih fits)
  | case3 e mark =>
    rw [likes, if_pos mark, beq_iff_eq] at h
    exact h ▸ .escapeAtEnd (beq_iff_eq.1 mark)
  | case4 c rest plain ih =>
    rw [likes_unescaped plain, afterUnescaped] at h
    rw [beq_iff_eq] at plain
    split at h
    · rename_i percent
      cases beq_iff_eq.1 percent
      obtain ⟨taken, t, rfl, fits⟩ := afterRun_iff.1 h
      exact .run plain taken (ih fits)
    · rename_i percent
      split at h
      · rename_i underscore
        cases beq_iff_eq.1 underscore
        obtain ⟨d, t, rfl, -, fits⟩ := afterOne_iff.1 h
        exact .one plain d (ih fits)
      · rename_i underscore
        obtain ⟨d, t, rfl, same, fits⟩ := afterOne_iff.1 h
        cases beq_iff_eq.1 same
        exact .itself plain ⟨by simpa using percent, by simpa using underscore⟩ (ih fits)

theorem fits_ordinary {c : Char} (ordinary : c ≠ '*' ∧ c ≠ '?' ∧ c ≠ '\\') (rest : List Char) :
    fits (c :: rest) s = afterOne (· == c) (fits rest) s := by
  rw [fits] <;> simp_all

theorem Fits.fits (h : Fits p s) : fits p s = true := by
  induction h with
  | empty => rfl
  | escaped _ ih => simpa [Wildcard.fits, afterOne] using ih
  | slashAtEnd => rfl
  | run taken _ ih => exact afterRun_iff.2 ⟨taken, _, rfl, ih⟩
  | one c _ ih => exact ih
  | itself ordinary _ ih =>
    rw [fits_ordinary ordinary]
    exact afterOne_iff.2 ⟨_, _, rfl, beq_self_eq_true _, ih⟩

/-- what `fits` finds can be put together piece by piece; a backslash takes the character behind it along -/
theorem Fits.of_fits : ∀ (p : List Char) {s : List Char}, Wildcard.fits p s = true → Fits p s
  | [], s, h => by
    cases List.isEmpty_iff.1 h
    exact .empty
  | c :: rest, s, h => by
    by_cases star : c = '*'
    · subst star
      obtain ⟨taken, t, rfl, fits⟩ := afterRun_iff.1 h
      exact .run taken (of_fits rest fits)
    by_cases mark : c = '?'
    · subst mark
      obtain ⟨d, t, rfl, -, fits⟩ := afterOne_iff.1 h
      exact .one d (of_fits rest fits)
    by_cases slash : c = '\\'
    · subst slash
      cases rest with
      | nil =>
        obtain ⟨d, t, rfl, same, fits⟩ := afterOne_iff.1 h
        cases beq_iff_eq.1 same
        cases List.isEmpty_iff.1 fits
        exact .slashAtEnd
      | cons next rest =>
        obtain ⟨d, t, rfl, same, fits⟩ := afterOne_iff.1 h
        cases beq_iff_eq.1 same
        exact .escaped (of_fits rest fits)
    · have ordinary : c ≠ '*' ∧ c ≠ '?' ∧ c ≠ '\\' := ⟨star, mark, slash⟩
      rw [fits_ordinary ordinary] at h
      obtain ⟨d, t, rfl, same, fits⟩ := afterOne_iff.1 h
      cases beq_iff_eq.1 same
      exact .itself ordinary (of_fits rest fits)

theorem fits_iff : fits p s = true ↔ Fits p s := ⟨Fits.of_fits p, Fits.fits⟩

/-- **A text fits a LIKE pattern exactly if it fits the wildcard pattern** that is written for it, whatever the escape
character is. -/
theorem likes_iff_fits (pattern : String) (escape : Option Char) (text : String) :
    Likes escape pattern.toList text.toList ↔ Fits (ofLikeText pattern escape).toList text.toList := by
  rw [← likes_iff, ← fits_iff, ofLikeText, String.toList_ofList, fits_ofLike]

end EntitySearch.Wildcard
