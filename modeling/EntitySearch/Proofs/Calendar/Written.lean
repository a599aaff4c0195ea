/-
Dates are read as they are written.

A natural that is padded with zeros is read as itself wherever as many digits are allowed and no digit follows. So a
year is read with its sign, if it has one, a month and a day are read in two digits, and a date is read back from its
text, whether blanks may stand behind the numbers or not (`readWith_text`). The text of a date has no blanks at its
ends.
-/
import EntitySearch.Calendar.Reading
import EntitySearch.Proofs.Number.Long

namespace EntitySearch

open Query (Clear clear_cons clear_nil IsDigits)

namespace Number

/-! ## Naturals in digits -/

variable {w n : ℕ}

theorem ofDigitChars_eq (s : List Char) (acc : ℕ) :
    Nat.ofDigitChars 10 s acc = decimal s + 10 ^ s.length * acc := by
  induction s generalizing acc with
  | nil => simp [Nat.ofDigitChars, decimal]
  | cons c rest ih =>
    rw [Nat.ofDigitChars_cons, ih, decimal_cons, List.length_cons, pow_succ]
    ring

/-- the digits of a natural denote it -/
theorem decimal_toDigits (n : ℕ) : decimal (Nat.toDigits 10 n) = n := by
  have read := ofDigitChars_eq (Nat.toDigits 10 n) 0
  rw [Nat.ofDigitChars_ten_toDigits] at read
  omega

theorem isDigits_toDigits (n : ℕ) : IsDigits (Nat.toDigits 10 n) :=
  ⟨Nat.toDigits_ne_nil, fun _ hc => Nat.isDigit_of_mem_toDigits (by decide) (by decide) hc⟩

/-- zeros before digits are worth nothing -/
theorem decimal_zeros (k : ℕ) (s : List Char) : decimal (List.replicate k '0' ++ s) = decimal s := by
  induction k with
  | zero => rfl
  | succ k ih =>
    rw [List.replicate_succ, List.cons_append, decimal_cons, ih]
    simp

theorem toList_zeros (k : ℕ) : (zeros k).toList = List.replicate k '0' := by
  induction k with
  | zero => rfl
  | succ k ih =>
    have next : zeros (k + 1) = (zeros k).push '0' := rfl
    rw [next, String.toList_push, ih, List.replicate_succ']

theorem toList_padded (w n : ℕ) :
    (padded w n).toList = List.replicate (w - (Nat.toDigits 10 n).length) '0' ++ Nat.toDigits 10 n := by
  have digits : (toString n).toList = Nat.toDigits 10 n := Nat.toList_repr
  rw [padded, String.toList_append, toList_zeros, digits, ← String.length_toList, digits]

/-- a padded natural is digits -/
theorem isDigits_padded (w n : ℕ) : IsDigits (padded w n).toList := by
  rw [toList_padded]
  obtain ⟨given, each⟩ := isDigits_toDigits n
  refine ⟨fun heq => given (List.append_eq_nil_iff.1 heq).2, fun c hc => ?_⟩
  rcases List.mem_append.1 hc with hc | hc
  · rw [List.eq_of_mem_replicate hc]
    rfl
  · exact each c hc

theorem decimal_padded (w n : ℕ) : decimal (padded w n).toList = n := by
  rw [toList_padded, decimal_zeros, decimal_toDigits]

/-- a natural that fits is padded to just the width -/
theorem length_padded (hw : 0 < w) (fits : n < 10 ^ w) : (padded w n).toList.length = w := by
  have short : (Nat.toDigits 10 n).length ≤ w := (Nat.length_toDigits_le_iff (by decide) hw).2 fits
  rw [toList_padded, List.length_append, List.length_replicate]
  omega

end Number

namespace Calendar

open Number (digit? decimal padded)

variable {digits rest : List Char} {width most n : ℕ}

/-! ## Numbers -/

/-- as many digits are read as there are, if so many are allowed -/
theorem someDigits_front (each : ∀ c ∈ digits, c.isDigit = true) (fits : digits.length ≤ width)
    (stop : Clear Char.isDigit rest) (acc : ℕ) :
    someDigits acc width (digits ++ rest) = (decimal digits + 10 ^ digits.length * acc, rest) := by
  induction digits generalizing acc width with
  | nil =>
    have worth : decimal [] + 10 ^ ([] : List Char).length * acc = acc := by simp [decimal]
    rw [worth]
    cases width with
    | zero => rfl
    | succ width =>
      cases rest with
      | nil => rfl
      | cons c rest => simp [someDigits, digit?, clear_cons.1 stop]
  | cons c digits ih =>
    obtain ⟨width, rfl⟩ : ∃ k, width = k + 1 := ⟨width - 1, by simp only [List.length_cons] at fits; omega⟩
    obtain ⟨hc, each⟩ := List.forall_mem_cons.1 each
    have worth : decimal (c :: digits) + 10 ^ (c :: digits).length * acc =
        decimal digits + 10 ^ digits.length * (acc * 10 + (c.toNat - 48)) := by
      rw [Number.decimal_cons, List.length_cons, pow_succ]
      show decimal digits + 10 ^ digits.length * (c.toNat - 48) + _ = _
      ring
    rw [worth, List.cons_append, someDigits, digit?, if_pos hc]
    exact ih each (by simpa using fits) _

theorem number_front (h : IsDigits digits) (fits : digits.length ≤ width) (stop : Clear Char.isDigit rest) :
    number width (digits ++ rest) = .ok (decimal digits, rest) := by
  obtain ⟨given, each⟩ := h
  have read := someDigits_front each fits stop 0
  obtain ⟨c, digits, rfl⟩ := List.exists_cons_of_ne_nil given
  have hc := each c List.mem_cons_self
  rw [List.cons_append] at read ⊢
  simp only [number, digit?, hc, if_true, read, mul_zero, add_zero]

theorem trimFront_clear (h : Clear Text.isBlank rest) : Text.trimFront rest = rest := h.dropWhile

theorem clear_blank_digits (h : IsDigits digits) (rest : List Char) : Clear Text.isBlank (digits ++ rest) :=
  Number.clear_digits h.1 h.2 rest

theorem digits_ne_sign (h : IsDigits digits) {c : Char} (hc : c.isDigit = false) {behind : List Char} :
    digits ++ rest ≠ c :: behind := by
  obtain ⟨given, each⟩ := h
  obtain ⟨d, digits, rfl⟩ := List.exists_cons_of_ne_nil given
  intro heq
  rw [← (List.cons.inj heq).1, each d List.mem_cons_self] at hc
  cases hc

/-- a month or a day is read as it is written -/
theorem part_front (least : 1 ≤ n) (greatest : n ≤ most) (fits : n < 100) (stop : Clear Char.isDigit rest) :
    part most ((padded 2 n).toList ++ rest) = .ok (n, rest) := by
  have written := Number.isDigits_padded 2 n
  have read := number_front written (Number.length_padded (by decide) fits).le stop
  rw [part, trimFront_clear (clear_blank_digits written rest), read, Number.decimal_padded]
  simp only [bind, Except.bind, least, greatest, decide_true, Bool.and_self, if_true]

/-! ## Dates -/

/-- the sign before a year, if it has one, and its digits -/
theorem toList_yearText (y : ℤ) : (yearText y).toList =
    if 0 ≤ y ∧ y ≤ 9999 then (padded 4 y.toNat).toList
    else (if y < 0 then '-' else '+') :: (padded 4 y.natAbs).toList := by
  unfold yearText
  by_cases plain : 0 ≤ y ∧ y ≤ 9999
  · simp [plain]
  · have signed : ¬ ((decide (0 ≤ y) && decide (y ≤ 9999)) = true) := by simpa using plain
    rw [if_neg signed, if_neg plain, String.toList_append]
    split <;> rfl

/-- a year is read as it is written -/
theorem year_front {y : ℤ} (least : minYear ≤ y) (greatest : y ≤ maxYear) (stop : Clear Char.isDigit rest) :
    year ((yearText y).toList ++ rest) = .ok (y, rest) := by
  have range : -2147483648 ≤ y ∧ y ≤ 2147483647 := by
    unfold minYear at least
    unfold maxYear at greatest
    omega
  rw [toList_yearText]
  by_cases plain : 0 ≤ y ∧ y ≤ 9999
  · have written := Number.isDigits_padded 4 y.toNat
    have read := number_front written (Number.length_padded (by decide) (by omega)).le stop
    rw [if_pos plain, year, trimFront_clear (clear_blank_digits written rest)]
    split
    · exact absurd ‹_› (digits_ne_sign written (by decide))
    · exact absurd ‹_› (digits_ne_sign written (by decide))
    · rw [read, Number.decimal_padded]
      simp only [bind, Except.bind, Except.map, Int.toNat_of_nonneg plain.1, range, decide_true, Bool.and_self, if_true]
  · rw [if_neg plain, List.cons_append]
    have written := Number.isDigits_padded 4 y.natAbs
    generalize hd : (padded 4 y.natAbs).toList = digits at written
    have read : number (digits ++ rest).length (digits ++ rest) = .ok (decimal digits, rest) :=
      number_front written (by simp) stop
    have worth : decimal digits = y.natAbs := by rw [← hd, Number.decimal_padded]
    by_cases negative : y < 0
    · have value : -((y.natAbs : ℕ) : ℤ) = y := by omega
      rw [if_pos negative, year, trimFront_clear (clear_cons.2 (by decide))]
      simp only [read, worth, bind, Except.bind, Except.map, value, range, decide_true, Bool.and_self, if_true]
    · have value : ((y.natAbs : ℕ) : ℤ) = y := by omega
      rw [if_neg negative, year, trimFront_clear (clear_cons.2 (by decide))]
      simp only [read, worth, bind, Except.bind, Except.map, value, range, decide_true, Bool.and_self, if_true]

theorem daysIn_le (y : ℤ) (month : ℕ) : daysIn y month ≤ 31 := by
  unfold daysIn
  split <;> (try split) <;> omega

theorem month_of_daysIn_pos {y : ℤ} {month : ℕ} (h : 0 < daysIn y month) : 1 ≤ month ∧ month ≤ 12 := by
  unfold daysIn at h
  split at h <;> omega

theorem of?_date (d : Date) : Date.of? d.year d.month d.day = some d := dif_pos d.isDay

theorem toList_text (d : Date) : d.text.toList =
    (yearText d.year).toList ++ '-' :: ((padded 2 d.month).toList ++ '-' :: (padded 2 d.day).toList) := by
  simp [Date.text]

/-- **A date is read back from its text**, whatever may stand behind the numbers. -/
theorem readWith_text {gap : List Char → List Char} (between : ∀ s, gap ('-' :: s) = '-' :: s) (behind : gap [] = [])
    (d : Date) : readWith gap d.text.toList = .ok d := by
  obtain ⟨least, greatest, first, last⟩ := d.isDay
  obtain ⟨january, december⟩ := month_of_daysIn_pos (show 0 < daysIn d.year d.month by omega)
  have longest := daysIn_le d.year d.month
  have hyphen_stops (s : List Char) : Clear Char.isDigit ('-' :: s) := clear_cons.2 rfl
  have day : part 31 ((padded 2 d.day).toList ++ []) = .ok (d.day, []) :=
    part_front first (by omega) (by omega) (clear_nil _)
  rw [List.append_nil] at day
  rw [toList_text, readWith, year_front least greatest (hyphen_stops _)]
  simp only [bind, Except.bind, between, hyphen]
  rw [part_front january december (by omega) (hyphen_stops _)]
  simp only [between]
  rw [day]
  simp only [behind, if_true, of?_date]

theorem readStrict_text (d : Date) : readStrict d.text.toList = .ok d := readWith_text (fun _ => rfl) rfl d

theorem readLoose_text (d : Date) : readLoose d.text.toList = .ok d :=
  readWith_text (fun _ => trimFront_clear (clear_cons.2 (by decide))) rfl d

/-- a date neither starts nor ends with a blank -/
theorem trim_text (d : Date) : (Text.trim d.text).toList = d.text.toList := by
  have ends : Clear Text.isBlank d.text.toList.reverse := by
    have last := Number.isDigits_padded 2 d.day
    have split : d.text.toList =
        ((yearText d.year).toList ++ '-' :: ((padded 2 d.month).toList ++ ['-'])) ++ (padded 2 d.day).toList := by
      simp [toList_text]
    rw [split]
    exact Number.clear_reversed last.1 last.2 _
  have starts : Clear Text.isBlank (d.text.toList ++ []) := by
    rw [List.append_nil, toList_text, toList_yearText]
    split
    · exact clear_blank_digits (Number.isDigits_padded _ _) _
    · split <;> exact clear_cons.2 (by decide)
  exact Text.trim_between (show d.text.toList = [] ++ d.text.toList ++ [] by simp) (by simp) starts ends

end Calendar

end EntitySearch
