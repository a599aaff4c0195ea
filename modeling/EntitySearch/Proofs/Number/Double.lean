/-
Which digits are too great for a double.

The quotient of two naturals is rounded to a double unless it is at least as near to the first power of two that is no
double as to the greatest double: from there on it becomes an infinity (`ofRatio_isFinite`). The same holds of decimal
digits with an exponent, for which the answer is given at once if they are far out of range (`ofDecimal_isFinite`).
So a text is read as a double that is not finite exactly if it is a word for one, or a numeral that is worth too much
(`unbounded_iff`).
-/
import EntitySearch.Proofs.Number.Long
import Mathlib.Algebra.Order.Field.Power
import Mathlib.Data.Rat.Cast.Order
import Mathlib.Tactic.FieldSimp
import Mathlib.Tactic.Linarith
import Mathlib.Tactic.NormNum
import Mathlib.Tactic.Positivity
import Mathlib.Tactic.Ring

namespace EntitySearch

open Number (shifted)

theorem Number.shifted_pos {base n : ℕ} (hb : 0 < base) (k : ℤ) (hn : 0 < n) : 0 < shifted base k n :=
  Nat.mul_pos hn (Nat.pow_pos hb)

/-- a quotient moved in a base -/
theorem Number.shifted_ratio {base : ℕ} (hb : 0 < base) (k : ℤ) (num : ℕ) {den : ℕ} (hd : 0 < den) :
    (shifted base k num : ℚ) / shifted base (-k) den = num / den * (base : ℚ) ^ k := by
  have hb' : (base : ℚ) ≠ 0 := by positivity
  have hd' : (den : ℚ) ≠ 0 := by positivity
  rcases Int.eq_nat_or_neg k with ⟨n, rfl | rfl⟩
  · simp only [shifted, Int.toNat_natCast, Int.toNat_neg_natCast, Nat.pow_eq, pow_zero, mul_one, Nat.cast_mul,
      Nat.cast_pow, zpow_natCast]
    ring
  · simp only [shifted, Int.toNat_natCast, Int.toNat_neg_natCast, neg_neg, Nat.pow_eq, pow_zero, mul_one, Nat.cast_mul,
      Nat.cast_pow, zpow_neg, zpow_natCast]
    field_simp

namespace Double

/-- half a step beyond the greatest double, from where on numbers are rounded to infinity -/
def overflow : ℚ := (2 ^ 54 - 1) * 2 ^ (970 : ℤ)

theorem overflow_bounds : (2 : ℚ) ^ (1023 : ℤ) < overflow ∧ overflow < 2 ^ (1024 : ℤ) := by
  have split (k : ℤ) : (2 : ℚ) ^ (k + 970) = 2 ^ k * 2 ^ (970 : ℤ) := zpow_add₀ two_ne_zero k 970
  have positive : (0 : ℚ) < 2 ^ (970 : ℤ) := by positivity
  rw [overflow, show (1023 : ℤ) = 53 + 970 from rfl, show (1024 : ℤ) = 54 + 970 from rfl, split, split]
  exact ⟨mul_lt_mul_of_pos_right (by norm_num) positive, mul_lt_mul_of_pos_right (by norm_num) positive⟩

variable {num den : ℕ}

/-- the power of two is at most the quotient -/
theorem shifted_le_iff (k : ℤ) (num : ℕ) (hd : 0 < den) :
    shifted 2 k den ≤ shifted 2 (-k) num ↔ (2 : ℚ) ^ k ≤ num / den := by
  have hd' : (0 : ℚ) < den := by exact_mod_cast hd
  rcases Int.eq_nat_or_neg k with ⟨n, rfl | rfl⟩
  · simp only [shifted, Int.toNat_natCast, Int.toNat_neg_natCast, Nat.pow_eq, pow_zero, mul_one, zpow_natCast,
      le_div_iff₀ hd', Nat.mul_comm den]
    exact_mod_cast Iff.rfl
  · simp only [shifted, Int.toNat_natCast, Int.toNat_neg_natCast, neg_neg, Nat.pow_eq, pow_zero, mul_one, zpow_neg,
      zpow_natCast, le_div_iff₀ hd', inv_mul_le_iff₀ (show (0 : ℚ) < 2 ^ n by positivity), Nat.mul_comm num]
    exact_mod_cast Iff.rfl

/-- a quotient is between the power of two of its logarithm and the next -/
theorem ratioLog_spec (hn : num ≠ 0) (hd : 0 < den) :
    (2 : ℚ) ^ ratioLog num den ≤ num / den ∧ (num / den : ℚ) < 2 ^ (ratioLog num den + 1) := by
  have hd' : (0 : ℚ) < den := by exact_mod_cast hd
  have num_least : (2 : ℚ) ^ (num.log2 : ℤ) ≤ num := by exact_mod_cast Nat.log2_self_le hn
  have num_most : (num : ℚ) < 2 ^ (num.log2 + 1 : ℤ) := by exact_mod_cast Nat.lt_log2_self (n := num)
  have den_least : (2 : ℚ) ^ (den.log2 : ℤ) ≤ den := by exact_mod_cast Nat.log2_self_le hd.ne'
  have den_most : (den : ℚ) < 2 ^ (den.log2 + 1 : ℤ) := by exact_mod_cast Nat.lt_log2_self (n := den)
  rw [ratioLog]
  simp only [shifted_le_iff _ num hd]
  split
  · rename_i least
    refine ⟨least, (div_lt_iff₀ hd').2 ?_⟩
    calc (num : ℚ) < 2 ^ (num.log2 + 1 : ℤ) := num_most
      _ = 2 ^ (num.log2 - den.log2 + 1 : ℤ) * 2 ^ (den.log2 : ℤ) := by
        rw [← zpow_add₀ two_ne_zero]
        congr 1
        ring
      _ ≤ 2 ^ (num.log2 - den.log2 + 1 : ℤ) * den := mul_le_mul_of_nonneg_left den_least (by positivity)
  · rename_i most
    refine ⟨(le_div_iff₀ hd').2 ?_, by simpa using most⟩
    calc (2 : ℚ) ^ (num.log2 - den.log2 - 1 : ℤ) * den
        ≤ 2 ^ (num.log2 - den.log2 - 1 : ℤ) * 2 ^ (den.log2 + 1 : ℤ) :=
          mul_le_mul_of_nonneg_left den_most.le (by positivity)
      _ = 2 ^ (num.log2 : ℤ) := by
        rw [← zpow_add₀ two_ne_zero]
        congr 1
        ring
      _ ≤ num := num_least

/-- A quotient below an even natural is rounded up to it from half a step on. -/
theorem roundHalfEven_eq {n : ℕ} (even : n % 2 = 0) (below : num < n * den) :
    roundHalfEven num den = n ↔ 2 * n * den ≤ 2 * num + den := by
  have parts := Nat.div_add_mod num den
  have less : num / den < n := Nat.div_lt_of_lt_mul (by rwa [Nat.mul_comm])
  have positive : 0 < den := Nat.pos_of_ne_zero fun zero => by simp [zero] at below
  have rest := Nat.mod_lt num positive
  unfold roundHalfEven
  dsimp only
  rw [Nat.mul_assoc]
  by_cases last : num / den + 1 = n
  · -- the last quotient below is odd, so that a half is rounded up
    have whole : n * den = den * (num / den) + den := by rw [← last]; ring
    split
    · omega
    · split
      · omega
      · rw [if_neg (by simp; omega)]
        omega
  · have whole : den * (num / den) + 2 * den ≤ n * den := by
      calc den * (num / den) + 2 * den = (num / den + 2) * den := by ring
        _ ≤ n * den := Nat.mul_le_mul_right den (by omega)
    have short : ¬2 * (n * den) ≤ 2 * num + den := by omega
    simp only [short, iff_false]
    split
    · omega
    · split
      · omega
      · split <;> omega

/-- With the step of the greatest double, a mantissa is rounded up to the next power of two from `overflow` on. -/
theorem roundHalfEven_eq_overflow (hd : 0 < den) (below : (num / den : ℚ) < 2 ^ (1024 : ℤ)) :
    roundHalfEven (shifted 2 (-971) num) (shifted 2 971 den) = 2 * leastFull ↔ overflow ≤ num / den := by
  have ratio := Number.shifted_ratio (by decide : 0 < 2) (-971) num hd
  have positive := Number.shifted_pos (by decide : 0 < 2) 971 hd
  rw [neg_neg, Nat.cast_ofNat] at ratio
  generalize shifted 2 (-971) num = a, shifted 2 971 den = b at ratio positive ⊢
  have positive' : (0 : ℚ) < b := by exact_mod_cast positive
  have scale (y : ℚ) (k : ℤ) : y * 2 ^ (k + 971) ≤ num / den ↔ y * 2 ^ k * b ≤ a := by
    rw [← le_div_iff₀ positive', ratio, zpow_neg, ← div_eq_mul_inv,
      le_div_iff₀ (show (0 : ℚ) < 2 ^ (971 : ℤ) by positivity), mul_assoc, ← zpow_add₀ two_ne_zero]
  have full : (2 * leastFull : ℕ) = 2 ^ 53 := rfl
  have short : a < 2 * leastFull * b := by
    have h := (scale 1 53).not.1 (by simpa using below)
    rw [full]
    exact_mod_cast (by simpa using h : (a : ℚ) < 2 ^ 53 * b)
  have half := scale (2 ^ 54 - 1) (-1)
  rw [roundHalfEven_eq rfl short, overflow, show (970 : ℤ) = -1 + 971 from rfl, half, full, zpow_neg_one]
  constructor
  · intro h
    have h : (2 * 2 ^ 53 * b : ℚ) ≤ 2 * a + b := by exact_mod_cast h
    linarith
  · intro h
    have h : (2 * 2 ^ 53 * b : ℚ) ≤ 2 * a + b := by linarith
    exact_mod_cast h

/-- what the exponent and the mantissa of a finite quotient are -/
theorem ofRatio_isFinite_iff (negative : Bool) (hn : num ≠ 0) :
    (ofRatio negative num den).isFinite = true ↔ ratioLog num den < 1023 ∨
      ratioLog num den = 1023 ∧ roundHalfEven (shifted 2 (-971) num) (shifted 2 971 den) ≠ 2 * leastFull := by
  rw [ofRatio, if_neg hn]
  dsimp only [greatestExponent, leastExponent]
  generalize ratioLog num den = log
  rcases lt_trichotomy log 1023 with less | rfl | more
  · simp only [less, true_or, iff_true]
    split <;> rw [if_neg (by omega)] <;> rfl
  · rw [show max (1023 - 52 : ℤ) (-1074) = 971 from rfl]
    simp only [lt_self_iff_false, false_or, true_and]
    split
    · rename_i full
      simp [isFinite, full]
    · rename_i short
      simp [isFinite, short]
  · have infinite : ¬(log < 1023) ∧ log ≠ 1023 := by omega
    simp only [infinite, false_and, or_self, iff_false]
    split <;> rw [if_pos (by omega)] <;> simp [isFinite]

/-- **A quotient is too great for a double** from `overflow` on. -/
theorem ofRatio_isFinite (negative : Bool) (num : ℕ) (hd : 0 < den) :
    (ofRatio negative num den).isFinite = true ↔ (num / den : ℚ) < overflow := by
  have bounds := overflow_bounds
  by_cases hn : num = 0
  · rw [ofRatio, if_pos hn, hn, Nat.cast_zero, zero_div]
    exact ⟨fun _ => lt_trans (by positivity) bounds.1, fun _ => rfl⟩
  · obtain ⟨least, most⟩ := ratioLog_spec hn hd
    have power {k l : ℤ} (h : k ≤ l) : (2 : ℚ) ^ k ≤ 2 ^ l := zpow_le_zpow_right₀ (by norm_num) h
    rw [ofRatio_isFinite_iff negative hn]
    rcases lt_trichotomy (ratioLog num den) 1023 with less | same | more
    · have finite := most.trans_le ((power (by omega)).trans bounds.1.le)
      simp only [less, finite, true_or]
    · rw [same] at most
      simp [same, roundHalfEven_eq_overflow hd most]
    · have infinite := not_lt.2 (bounds.2.le.trans ((power (by omega)).trans least))
      simp only [infinite, more.not_gt, more.ne', false_and, or_self]

/-- a natural has the digits that it is counted to have -/
theorem digitCount_spec (n : ℕ) : n < 10 ^ digitCount n ∧ (n ≠ 0 → 10 ^ digitCount n ≤ 10 * n) := by
  induction n using digitCount.induct with
  | case1 => simp [digitCount]
  | case2 n hn ih =>
    rw [digitCount, dif_neg hn, pow_succ]
    obtain ⟨below, least⟩ := ih
    refine ⟨by omega, fun _ => ?_⟩
    by_cases last : n / 10 = 0
    · rw [last, digitCount, dif_pos rfl]
      omega
    · have := least last
      omega

theorem overflow_le_ten_pow : overflow ≤ 10 ^ (400 : ℤ) := by
  calc overflow ≤ 2 ^ (1024 : ℤ) := overflow_bounds.2.le
    _ = (2 ^ 128) ^ 8 := pow_mul (2 : ℚ) 128 8
    _ ≤ (10 ^ 50) ^ 8 := pow_le_pow_left₀ (by norm_num) (by norm_num) 8
    _ = 10 ^ (400 : ℤ) := (pow_mul (10 : ℚ) 50 8).symm

/-- digits with an exponent are between two powers of ten -/
theorem digits_bounds (digits : ℕ) (exp : ℤ) : (digits * 10 ^ exp : ℚ) < 10 ^ (digitCount digits + exp : ℤ) ∧
    (digits ≠ 0 → 10 ^ (digitCount digits + exp : ℤ) ≤ 10 * (digits * 10 ^ exp : ℚ)) := by
  obtain ⟨below, least⟩ := digitCount_spec digits
  rw [zpow_add₀ (by norm_num), zpow_natCast, ← mul_assoc]
  refine ⟨mul_lt_mul_of_pos_right (by exact_mod_cast below) (by positivity), fun given => ?_⟩
  exact mul_le_mul_of_nonneg_right (by exact_mod_cast least given) (by positivity)

/-- **Digits with an exponent are too great for a double** from `overflow` on. -/
theorem ofDecimal_isFinite (negative : Bool) (digits : ℕ) (exp : ℤ) :
    (ofDecimal negative digits exp).isFinite = true ↔ (digits * 10 ^ exp : ℚ) < overflow := by
  have power {k l : ℤ} (h : k ≤ l) : (10 : ℚ) ^ k ≤ 10 ^ l := zpow_le_zpow_right₀ (by norm_num) h
  obtain ⟨below, least⟩ := digits_bounds digits exp
  simp only [ofDecimal, Bool.or_eq_true, decide_eq_true_eq]
  generalize (digitCount digits + exp : ℤ) = top at below least ⊢
  split
  · rename_i small
    have finite : (digits * 10 ^ exp : ℚ) < 1 := by
      rcases small with zero | small
      · simp [zero]
      · exact below.trans_le ((power (show top ≤ 0 by omega)).trans_eq (zpow_zero _))
    have least_power : (1 : ℚ) ≤ 2 ^ (1023 : ℤ) := one_le_zpow₀ one_le_two (by omega)
    simp only [isFinite, true_iff]
    exact finite.trans_le (least_power.trans overflow_bounds.1.le)
  · rename_i given
    split
    · rename_i great
      have infinite : overflow ≤ digits * 10 ^ exp := by
        have step : (10 : ℚ) * 10 ^ (400 : ℤ) ≤ 10 ^ top := by
          rw [← zpow_one_add₀ (by norm_num)]
          exact power great
        exact overflow_le_ten_pow.trans (le_of_mul_le_mul_left (step.trans (least (by omega))) (by norm_num))
      simp [isFinite, infinite]
    · have ratio := Number.shifted_ratio (by decide : 0 < 10) exp digits Nat.one_pos
      rw [ofRatio_isFinite _ _ (Number.shifted_pos (by decide) _ (by decide)), ratio]
      simp

end Double

/-! ## Texts -/

namespace Number

/-- the digits at the front of a text -/
theorem exists_digits (s : List Char) : ∃ digits rest, s = digits ++ rest ∧ (∀ c ∈ digits, c.isDigit = true) ∧
    Query.Clear Char.isDigit rest :=
  ⟨s.takeWhile Char.isDigit, s.dropWhile Char.isDigit, List.takeWhile_append_dropWhile.symm,
    fun _ => List.mem_takeWhile_imp, Query.clear_dropWhile Char.isDigit s⟩

/-- nothing, or an e with a sign, or none, and digits, denotes a power of ten -/
inductive Exponent : List Char → ℤ → Prop where
  | absent : Exponent [] 0
  | given {e : Char} {s : List Char} {n : ℤ} (letter : e = 'e' ∨ e = 'E') (signed : Signed s n) : Exponent (e :: s) n

/-- Digits, one at least, with a point among them, or none, and an exponent denote a natural and a power of ten. -/
inductive Numeral : List Char → ℕ → ℤ → Prop where
  | whole {digits tail : List Char} {e : ℤ} (given : digits ≠ []) (each : ∀ c ∈ digits, c.isDigit = true)
    (exponent : Exponent tail e) : Numeral (digits ++ tail) (decimal digits) e
  | pointed {whole part tail : List Char} {e : ℤ} (given : whole ++ part ≠ [])
    (each : ∀ c ∈ whole ++ part, c.isDigit = true) (exponent : Exponent tail e) :
    Numeral (whole ++ '.' :: (part ++ tail)) (decimal (whole ++ part)) (e - part.length)

theorem readExponent_eq_some {s : List Char} {n : ℤ} : readExponent s = some n ↔ Exponent s n := by
  cases s with
  | nil =>
    simp only [readExponent, Option.some.injEq]
    constructor
    · rintro rfl
      exact .absent
    · rintro ⟨⟩
      rfl
  | cons c rest =>
    have behind : readExponent (c :: rest) = some n ↔ (c = 'e' ∨ c = 'E') ∧ Signed rest n := by
      simp [readExponent, signed_iff, Option.bind_eq_some_iff]
    rw [behind]
    constructor
    · exact fun h => .given h.1 h.2
    · rintro ⟨⟩
      exact ⟨‹_›, ‹_›⟩

/-- an exponent does not start with a digit or a point -/
theorem Exponent.clear {s : List Char} {n : ℤ} (h : Exponent s n) :
    Query.Clear Char.isDigit s ∧ ∀ r, s ≠ '.' :: r := by
  cases h with
  | absent => exact ⟨Query.clear_nil _, by simp⟩
  | given letter _ =>
    rcases letter with rfl | rfl
    · exact ⟨Query.clear_cons.2 (by decide), by simp⟩
    · exact ⟨Query.clear_cons.2 (by decide), by simp⟩

section

variable {negative : Bool} {whole part tail s : List Char}

theorem readDigits_whole (each : ∀ c ∈ whole, c.isDigit = true) (clear : Query.Clear Char.isDigit tail)
    (no_point : ∀ r, tail ≠ '.' :: r) : readDigits negative (whole ++ tail) =
      (digits? whole).bind fun n => (readExponent tail).map fun e => Double.ofDecimal negative n e := by
  rw [readDigits, Query.takeWhile_front each clear, Query.dropWhile_front each clear]
  dsimp only
  split
  · exact absurd rfl (no_point _)
  · simp

theorem readDigits_pointed (each : ∀ c ∈ whole ++ part, c.isDigit = true) (clear : Query.Clear Char.isDigit tail) :
    readDigits negative (whole ++ '.' :: (part ++ tail)) =
      (digits? (whole ++ part)).bind fun n =>
        (readExponent tail).map fun e => Double.ofDecimal negative n (e - part.length) := by
  rw [List.forall_mem_append] at each
  have point : Query.Clear Char.isDigit ('.' :: (part ++ tail)) := Query.clear_cons.2 (by decide)
  simp only [readDigits, Query.takeWhile_front each.1 point, Query.dropWhile_front each.1 point,
    Query.takeWhile_front each.2 clear, Query.dropWhile_front each.2 clear]

/-- **The digits that are read are those that are denoted.** -/
theorem readDigits_eq_some {x : Double} :
    readDigits negative s = some x ↔ ∃ n e, Numeral s n e ∧ x = Double.ofDecimal negative n e := by
  constructor
  · intro h
    obtain ⟨whole, rest, rfl, each, clear⟩ := exists_digits s
    by_cases point : ∃ r, rest = '.' :: r
    · obtain ⟨r, rfl⟩ := point
      obtain ⟨part, tail, rfl, each', clear'⟩ := exists_digits r
      have each := List.forall_mem_append.2 ⟨each, each'⟩
      rw [readDigits_pointed each clear'] at h
      simp only [Option.bind_eq_some_iff, Option.map_eq_some_iff, digits?_eq_some, readExponent_eq_some] at h
      obtain ⟨n, ⟨given, -, rfl⟩, e, exponent, rfl⟩ := h
      exact ⟨_, _, .pointed given each exponent, rfl⟩
    · rw [readDigits_whole each clear (not_exists.1 point)] at h
      simp only [Option.bind_eq_some_iff, Option.map_eq_some_iff, digits?_eq_some, readExponent_eq_some] at h
      obtain ⟨n, ⟨given, -, rfl⟩, e, exponent, rfl⟩ := h
      exact ⟨_, _, .whole given each exponent, rfl⟩
  · rintro ⟨n, e, denoted, rfl⟩
    cases denoted with
    | whole given each exponent =>
      rw [readDigits_whole each exponent.clear.1 exponent.clear.2, digits?_eq_some.2 ⟨given, each, rfl⟩,
        readExponent_eq_some.2 exponent]
      rfl
    | pointed given each exponent =>
      rw [readDigits_pointed each exponent.clear.1, digits?_eq_some.2 ⟨given, each, rfl⟩,
        readExponent_eq_some.2 exponent]
      rfl

end

/-- the words of doubles that are not finite -/
def words : List (List Char) := ["inf".toList, "infinity".toList, "nan".toList]

/-- A text of a double that is not finite: behind the sign there is a word, or a numeral that is worth too much. -/
def Unbounded (s : List Char) : Prop :=
  Text.lower (splitSign s).2 ∈ words ∨ ∃ n e, Numeral (splitSign s).2 n e ∧ Double.overflow ≤ n * 10 ^ e

/-- a numeral starts with a digit or a point -/
theorem Numeral.head {s : List Char} {n : ℕ} {e : ℤ} (h : Numeral s n e) :
    ∃ c rest, s = c :: rest ∧ (c.isDigit = true ∨ c = '.') := by
  cases h with
  | @whole digits tail _ given each _ =>
    obtain ⟨c, rest, rfl⟩ := List.exists_cons_of_ne_nil given
    exact ⟨c, rest ++ tail, rfl, .inl (each c List.mem_cons_self)⟩
  | @pointed whole part tail _ _ each _ =>
    cases whole with
    | nil => exact ⟨'.', part ++ tail, rfl, .inr rfl⟩
    | cons c rest => exact ⟨c, rest ++ '.' :: (part ++ tail), rfl, .inl (each c List.mem_cons_self)⟩

/-- no word is a numeral, since it starts with a letter -/
theorem Numeral.lower_not_mem {s : List Char} {n : ℕ} {e : ℤ} (h : Numeral s n e) : Text.lower s ∉ words := by
  intro word
  have letters : ∀ w ∈ words, w.head?.all Char.isAlpha = true := by decide
  obtain ⟨c, rest, rfl, front⟩ := h.head
  have letter : c.isAlpha = true := by
    simpa [Text.lower, Char.isAlpha_toLower_eq_isAlpha] using letters _ word
  rcases front with digit | rfl
  · simp only [Char.isAlpha, Char.isUpper, Char.isLower, Char.isDigit, Bool.or_eq_true, Bool.and_eq_true,
      decide_eq_true_eq, UInt32.le_iff_toNat_le, GE.ge] at letter digit
    rcases letter with letter | letter
    · exact absurd (letter.1.trans digit.2) (by decide)
    · exact absurd (letter.1.trans digit.2) (by decide)
  · exact absurd letter (by decide)

/-- a word is read as a double that is not finite -/
theorem readSpecial_of_mem {s : List Char} (negative : Bool) (h : Text.lower s ∈ words) :
    ∃ x, readSpecial negative s = some x ∧ x.isFinite = false := by
  rw [readSpecial]
  generalize Text.lower s = word at h ⊢
  simp only [words, List.mem_cons, List.not_mem_nil, or_false] at h
  rcases h with rfl | rfl | rfl
  · exact ⟨_, rfl, rfl⟩
  · exact ⟨_, rfl, rfl⟩
  · exact ⟨_, rfl, rfl⟩

theorem mem_of_readSpecial {s : List Char} {negative : Bool} {x : Double} (h : readSpecial negative s = some x) :
    Text.lower s ∈ words := by
  simp only [readSpecial, Bool.or_eq_true, beq_iff_eq] at h
  simp only [words, List.mem_cons, List.not_mem_nil, or_false]
  split at h
  · tauto
  · split at h
    · tauto
    · cases h

/-- **The doubles that are not finite** are read from words and from numerals that are worth too much. -/
theorem unbounded_iff {s : List Char} : Unbounded s ↔ ∃ x, readDouble s = some x ∧ x.isFinite = false := by
  have finite (n : ℕ) (e : ℤ) :
      (Double.ofDecimal (splitSign s).1 n e).isFinite = false ↔ Double.overflow ≤ n * 10 ^ e := by
    rw [← not_lt, ← Double.ofDecimal_isFinite (splitSign s).1, Bool.not_eq_true]
  simp only [Unbounded, readDouble, Option.or_eq_some_iff, readDigits_eq_some]
  constructor
  · rintro (word | ⟨n, e, numeral, much⟩)
    · obtain ⟨x, special, infinite⟩ := readSpecial_of_mem (splitSign s).1 word
      refine ⟨x, .inr ⟨Option.eq_none_iff_forall_ne_some.2 fun y hy => ?_, special⟩, infinite⟩
      obtain ⟨n, e, numeral, -⟩ := readDigits_eq_some.1 hy
      exact numeral.lower_not_mem word
    · exact ⟨_, .inl ⟨n, e, numeral, rfl⟩, (finite n e).2 much⟩
  · rintro ⟨x, ⟨n, e, numeral, rfl⟩ | ⟨-, special⟩, infinite⟩
    · exact .inr ⟨n, e, numeral, (finite n e).1 infinite⟩
    · exact .inl (mem_of_readSpecial special)

end Number

end EntitySearch
