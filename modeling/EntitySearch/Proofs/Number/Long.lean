/-
The integer that a text denotes, and the 64-bit integer that is read from it.

`Denotes` says what a text means without regard to how it is read: white space around an optional sign and decimal
digits. Any number of digits will do, so the integer has no bounds. A 64-bit integer is read from a text that is trimmed
exactly when the text denotes it and it is in range (`readLong_trim`): no digits are lost, and nothing wraps round.
-/
import EntitySearch.Number.Reading
import EntitySearch.Proofs.Query.Scan
import Mathlib.Data.Nat.Digits.Defs

namespace EntitySearch

/-! ## Trimming -/

namespace Text

/-- what is trimmed away is blank -/
theorem trim_blanks (text : String) : ∃ front back, text.toList = front ++ (trim text).toList ++ back ∧
    ∀ c ∈ front ++ back, isBlank c = true := by
  let rest := text.toList.dropWhile isBlank
  refine ⟨text.toList.takeWhile isBlank, (rest.reverse.takeWhile isBlank).reverse, ?_, fun c hc => ?_⟩
  · rw [trim, String.toList_ofList, trimBack, trimFront, List.append_assoc, ← List.reverse_append,
      List.takeWhile_append_dropWhile, List.reverse_reverse, List.takeWhile_append_dropWhile]
  · rcases List.mem_append.1 hc with hc | hc
    · exact List.mem_takeWhile_imp hc
    · exact List.mem_takeWhile_imp (List.mem_reverse.1 hc)

/-- what stands between blanks is left when it neither starts nor ends with one -/
theorem trim_between {text : String} {front body back : List Char} (h : text.toList = front ++ body ++ back)
    (blank : ∀ c ∈ front ++ back, isBlank c = true) (first : Query.Clear isBlank (body ++ back))
    (last : Query.Clear isBlank body.reverse) : (trim text).toList = body := by
  rw [List.forall_mem_append] at blank
  have fronted : trimFront text.toList = body ++ back := by
    rw [h, List.append_assoc]
    exact Query.dropWhile_front blank.1 first
  have behind : ∀ c ∈ back.reverse, isBlank c = true := fun c hc => blank.2 c (List.mem_reverse.1 hc)
  rw [trim, String.toList_ofList, fronted, trimBack, List.reverse_append, Query.dropWhile_front behind last,
    List.reverse_reverse]

end Text

namespace Number

/-! ## Digits -/

/-- the natural that decimal digits denote, the last of them worth least -/
def decimal (digits : List Char) : ℕ := Nat.ofDigits 10 (digits.reverse.map fun c => c.toNat - '0'.toNat)

theorem decimal_cons (c : Char) (rest : List Char) :
    decimal (c :: rest) = decimal rest + 10 ^ rest.length * (c.toNat - '0'.toNat) := by
  rw [decimal, List.reverse_cons, List.map_append, Nat.ofDigits_append, List.length_map, List.length_reverse,
    List.map_singleton, Nat.ofDigits_singleton, decimal]

/-- digits read one by one, behind others -/
theorem digitsFrom_eq_some {s : List Char} {acc n : ℕ} : digitsFrom acc s = some n ↔
    (∀ c ∈ s, c.isDigit = true) ∧ n = decimal s + 10 ^ s.length * acc := by
  induction s generalizing acc with
  | nil =>
    simp only [digitsFrom, decimal, Option.some.injEq, List.reverse_nil, List.map_nil, Nat.ofDigits_nil,
      List.length_nil, pow_zero, one_mul, zero_add, List.not_mem_nil, false_imp_iff, implies_true, true_and]
    exact eq_comm
  | cons c rest ih =>
    rw [digitsFrom, digit?, List.forall_mem_cons]
    by_cases hc : c.isDigit = true
    · have worth : decimal (c :: rest) + 10 ^ (c :: rest).length * acc =
          decimal rest + 10 ^ rest.length * (acc * 10 + (c.toNat - 48)) := by
        rw [decimal_cons, List.length_cons, pow_succ]
        show decimal rest + 10 ^ rest.length * (c.toNat - 48) + _ = _
        ring
      rw [if_pos hc, Option.bind_some, ih, worth]
      simp [hc]
    · rw [if_neg hc]
      simp [hc]

theorem digits?_eq_some {s : List Char} {n : ℕ} : digits? s = some n ↔
    s ≠ [] ∧ (∀ c ∈ s, c.isDigit = true) ∧ n = decimal s := by
  cases s with
  | nil => simp [digits?]
  | cons c rest => simp [digits?, digitsFrom_eq_some]

/-! ## Signs -/

/-- a sign, or none, and digits, one at least, denote an integer -/
inductive Signed : List Char → ℤ → Prop where
  | plain {digits : List Char} (given : digits ≠ []) (each : ∀ c ∈ digits, c.isDigit = true) :
    Signed digits (decimal digits)
  | plus {digits : List Char} (given : digits ≠ []) (each : ∀ c ∈ digits, c.isDigit = true) :
    Signed ('+' :: digits) (decimal digits)
  | minus {digits : List Char} (given : digits ≠ []) (each : ∀ c ∈ digits, c.isDigit = true) :
    Signed ('-' :: digits) (-decimal digits)

/-- digits have no sign at their front -/
theorem splitSign_digits {digits : List Char} (each : ∀ c ∈ digits, c.isDigit = true) :
    splitSign digits = (false, digits) := by
  unfold splitSign
  split
  · exact absurd (each '-' List.mem_cons_self) (by decide)
  · exact absurd (each '+' List.mem_cons_self) (by decide)
  · rfl

theorem signed_of_split {s rest : List Char} {negative : Bool} (h : splitSign s = (negative, rest)) (given : rest ≠ [])
    (each : ∀ c ∈ rest, c.isDigit = true) : Signed s (if negative then -(decimal rest : ℤ) else decimal rest) := by
  unfold splitSign at h
  split at h <;> cases h
  · exact .minus given each
  · exact .plus given each
  · exact .plain given each

/-- what is denoted is behind the sign -/
theorem signed_iff {s : List Char} {n : ℤ} : Signed s n ↔
    ∃ m, digits? (splitSign s).2 = some m ∧ (if (splitSign s).1 then -(m : ℤ) else m) = n := by
  constructor
  · intro signed
    cases signed with
    | plain given each =>
      rw [splitSign_digits each]
      exact ⟨_, digits?_eq_some.2 ⟨given, each, rfl⟩, rfl⟩
    | plus given each => exact ⟨_, digits?_eq_some.2 ⟨given, each, rfl⟩, rfl⟩
    | minus given each => exact ⟨_, digits?_eq_some.2 ⟨given, each, rfl⟩, rfl⟩
  · rintro ⟨m, hm, rfl⟩
    obtain ⟨given, each, rfl⟩ := digits?_eq_some.1 hm
    exact signed_of_split (Prod.mk.eta (p := splitSign s)).symm given each

/-- **What is read is what is denoted**, as far as it is in range. -/
theorem readLong_eq_some {s : List Char} {n : ℤ} :
    readLong s = some n ↔ Signed s n ∧ minLong ≤ n ∧ n ≤ maxLong := by
  simp only [readLong, signed_iff, Option.bind_eq_some_iff, Option.ite_none_right_eq_some, Bool.and_eq_true,
    decide_eq_true_eq, Option.some.injEq]
  constructor
  · rintro ⟨m, hm, range, rfl⟩
    exact ⟨⟨m, hm, rfl⟩, range⟩
  · rintro ⟨⟨m, hm, rfl⟩, range⟩
    exact ⟨m, hm, range, rfl⟩

/-! ## Texts -/

/-- **A text denotes an integer**: between blanks there are a sign, or none, and decimal digits. -/
def Denotes (text : String) (n : ℤ) : Prop :=
  ∃ front body back, text.toList = front ++ body ++ back ∧ (∀ c ∈ front ++ back, Text.isBlank c = true) ∧ Signed body n

theorem not_isBlank_of_isDigit {c : Char} (h : c.isDigit = true) : Text.isBlank c = false := by
  have digit : 48 ≤ c.toNat ∧ c.toNat ≤ 57 := by
    simpa [Char.isDigit, UInt32.le_iff_toNat_le] using h
  rw [← Bool.not_eq_true]
  intro blank
  simp only [Text.isBlank, Bool.or_eq_true, Bool.and_eq_true, decide_eq_true_eq, beq_iff_eq] at blank
  omega

theorem clear_digits {digits : List Char} (given : digits ≠ []) (each : ∀ c ∈ digits, c.isDigit = true)
    (behind : List Char) : Query.Clear Text.isBlank (digits ++ behind) := by
  obtain ⟨c, rest, rfl⟩ := List.exists_cons_of_ne_nil given
  exact Query.clear_cons.2 (not_isBlank_of_isDigit (each c List.mem_cons_self))

theorem clear_reversed {digits : List Char} (given : digits ≠ []) (each : ∀ c ∈ digits, c.isDigit = true)
    (sign : List Char) : Query.Clear Text.isBlank (sign ++ digits).reverse := by
  rw [List.reverse_append]
  exact clear_digits (List.reverse_ne_nil_iff.2 given) (fun c hc => each c (List.mem_reverse.1 hc)) _

/-- a signed number neither starts nor ends with a blank -/
theorem Signed.clear {s : List Char} {n : ℤ} (h : Signed s n) (back : List Char) :
    Query.Clear Text.isBlank (s ++ back) ∧ Query.Clear Text.isBlank s.reverse := by
  cases h with
  | plain given each => exact ⟨clear_digits given each back, clear_reversed given each []⟩
  | plus given each => exact ⟨Query.clear_cons.2 (by decide), clear_reversed given each ['+']⟩
  | minus given each => exact ⟨Query.clear_cons.2 (by decide), clear_reversed given each ['-']⟩

theorem denotes_iff {text : String} {n : ℤ} : Denotes text n ↔ Signed (Text.trim text).toList n := by
  constructor
  · rintro ⟨front, body, back, spelled, blank, signed⟩
    obtain ⟨first, last⟩ := signed.clear back
    rwa [Text.trim_between spelled blank first last]
  · intro signed
    obtain ⟨front, back, spelled, blank⟩ := Text.trim_blanks text
    exact ⟨front, _, back, spelled, blank, signed⟩

/-- **A 64-bit integer is read from a text exactly when the text denotes it** and it is in range. -/
theorem readLong_trim {text : String} {n : ℤ} :
    readLong (Text.trim text).toList = some n ↔ Denotes text n ∧ minLong ≤ n ∧ n ≤ maxLong := by
  rw [readLong_eq_some, denotes_iff]

end Number

end EntitySearch
