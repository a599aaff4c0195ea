/-
Values are read back as themselves.

The running text of a value, converted to the kind of the value, gives the value again (`convert_text`), and so does the
form that a value takes in JSON, read without a declared kind (`ofJson?_toJson`), unless it is a text that reads as a
date. Then it is that date from the first reading on, so that reading what a reading gave changes nothing
(`values_read_back`).
-/
import EntitySearch.Catalog.Value
import EntitySearch.Proofs.Calendar.Written

namespace EntitySearch

open Number (minLong maxLong)

namespace Number

/-- an integer is denoted by its own text -/
theorem denotes_toString (n : ℤ) : Denotes (toString n) n := by
  refine ⟨[], (toString n).toList, [], by simp, by simp, ?_⟩
  obtain ⟨given, each⟩ := isDigits_toDigits n.natAbs
  have worth := decimal_toDigits n.natAbs
  have text : (toString n).toList = if 0 ≤ n then Nat.toDigits 10 n.natAbs else '-' :: Nat.toDigits 10 n.natAbs := by
    have written : toString n = if 0 ≤ n then n.toNat.repr else "-" ++ (-n).toNat.repr := Int.repr_eq_if
    rw [written]
    split
    · rw [Nat.toList_repr]
      congr 1
      omega
    · rw [String.toList_append, Nat.toList_repr, show (-n).toNat = n.natAbs by omega]
      rfl
  rw [text]
  by_cases positive : 0 ≤ n
  · rw [if_pos positive]
    have signed := Signed.plain given each
    rwa [worth, show ((n.natAbs : ℕ) : ℤ) = n by omega] at signed
  · rw [if_neg positive]
    have signed := Signed.minus given each
    rwa [worth, show -((n.natAbs : ℕ) : ℤ) = n by omega] at signed

end Number

namespace Value

/-- a boolean, a 64-bit integer, a date or a text -/
def IsExact : Value → Prop
  | .long n => minLong ≤ n ∧ n ≤ maxLong
  | .double _ => False
  | .bool _ | .date _ | .string _ => True

/-- the text reads as a date, with blanks wherever they are allowed -/
def ReadsAsDate (s : String) : Prop := ∃ d, Calendar.readLoose s.toList = .ok d

variable {v : Value}

/-- **The running text of a value** is converted to the value, in the kind that it is of. -/
theorem convert_text (exact : v.IsExact) : v.kind.convert v.text = .ok v := by
  cases v with
  | bool b =>
    have word : Kind.boolOf (Text.trim (if b then "true" else "false")).toList = some b := by
      cases b <;> decide +kernel
    simp only [kind, text, Kind.convert, word]
  | long n =>
    have read : Number.readLong (Text.trim (toString n)).toList = some n :=
      Number.readLong_trim.2 ⟨Number.denotes_toString n, exact⟩
    simp only [kind, text, Kind.convert, read]
  | double x => exact exact.elim
  | date d => simp only [kind, text, Kind.convert, Calendar.trim_text, Calendar.readStrict_text]
  | string s => rfl

/-- **The form of a value in JSON** is read as the value, unless it is a text that reads as a date. -/
theorem ofJson?_toJson (exact : v.IsExact) (undated : ∀ s, v = .string s → ¬ ReadsAsDate s) :
    ofJson? v.toJson = some v := by
  cases v with
  | bool b => rfl
  | long n =>
    have range : (decide (minLong ≤ n) && decide (n ≤ maxLong)) = true := by
      rw [decide_eq_true exact.1, decide_eq_true exact.2]
      rfl
    simp only [toJson, ofJson?, range, if_true]
  | double x => exact exact.elim
  | date d => simp only [toJson, ofJson?, Calendar.readLoose_text]
  | string s =>
    cases read : Calendar.readLoose s.toList with
    | ok d => exact absurd ⟨d, read⟩ (undated s rfl)
    | error e => simp only [toJson, ofJson?, read]

/-- a boolean, a 64-bit integer or a text in JSON -/
inductive IsScalar : Json → Prop where
  | bool (b : Bool) : IsScalar (.bool b)
  | int {n : ℤ} : minLong ≤ n → n ≤ maxLong → IsScalar (.int n)
  | text (s : String) : IsScalar (.text s)

/-- what is read is no text that reads as a date -/
theorem ofJson?_scalar {j : Json} (h : IsScalar j) :
    ∃ v, ofJson? j = some v ∧ v.IsExact ∧ ∀ s, v = .string s → ¬ ReadsAsDate s := by
  cases h with
  | bool b => exact ⟨.bool b, rfl, trivial, fun s hs => by cases hs⟩
  | @int n least greatest =>
    have range : (decide (minLong ≤ n) && decide (n ≤ maxLong)) = true := by
      rw [decide_eq_true least, decide_eq_true greatest]
      rfl
    exact ⟨.long n, by simp only [ofJson?, range, if_true], ⟨least, greatest⟩, fun s hs => by cases hs⟩
  | text s =>
    cases read : Calendar.readLoose s.toList with
    | ok d => exact ⟨.date d, by simp only [ofJson?, read], trivial, fun s hs => by cases hs⟩
    | error e =>
      refine ⟨.string s, by simp only [ofJson?, read], trivial, fun s' hs => ?_⟩
      cases hs
      rintro ⟨d, dated⟩
      rw [read] at dated
      cases dated

/-- **Values are read back as themselves.** Every boolean, 64-bit integer, date and text is converted back from its
running text in its own kind, and is read back from its form in JSON unless it is a text that reads as a date. So
whatever is read from a boolean, a 64-bit integer or a text in JSON takes a form that is read as the same. -/
theorem values_read_back :
    (∀ v : Value, v.IsExact → v.kind.convert v.text = .ok v) ∧
    (∀ v : Value, v.IsExact → (∀ s, v = .string s → ¬ ReadsAsDate s) → ofJson? v.toJson = some v) ∧
    ∀ j, IsScalar j → ∃ v, ofJson? j = some v ∧ ofJson? v.toJson = some v := by
  refine ⟨fun v => convert_text, fun v => ofJson?_toJson, fun j scalar => ?_⟩
  obtain ⟨v, read, exact, undated⟩ := ofJson?_scalar scalar
  exact ⟨v, read, ofJson?_toJson exact undated⟩

/-- a day before the common era, and a leap day that is written loosely -/
theorem values_read_back_days :
    ∃ ides : Calendar.Date, ides.text = "-0043-03-15" ∧
      Kind.convert .date "-0043-03-15" = .ok (.date ides) ∧ ofJson? (.text "-0043-03-15") = some (.date ides) ∧
      ∃ v, ofJson? (.text " 2024 - 2 - 29 ") = some v ∧ v.toJson = .text "2024-02-29" ∧
        ofJson? (.text "2024-02-29") = some v := by
  let ides : Calendar.Date := ⟨-43, 3, 15, by decide⟩
  have written : ides.text = "-0043-03-15" := by decide +kernel
  have converted := values_read_back.1 (.date ides) trivial
  have decoded := values_read_back.2.1 (.date ides) trivial fun s hs => by cases hs
  let leap : Calendar.Date := ⟨2024, 2, 29, by decide⟩
  have dated : (Calendar.readLoose " 2024 - 2 - 29 ".toList).toOption = some leap := by decide +kernel
  have leap_written : leap.text = "2024-02-29" := by decide +kernel
  obtain ⟨v, read, again⟩ := values_read_back.2.2 (.text " 2024 - 2 - 29 ") (.text _)
  have same : v = .date leap := by
    cases h : Calendar.readLoose " 2024 - 2 - 29 ".toList with
    | ok d =>
      rw [h] at dated
      cases dated
      simp only [ofJson?, h] at read
      exact (Option.some.inj read).symm
    | error e =>
      rw [h] at dated
      cases dated
  have form : v.toJson = .text "2024-02-29" := by rw [same, toJson, leap_written]
  refine ⟨ides, written, ?_, ?_, v, read, form, form ▸ again⟩
  · rw [← written]
    exact converted
  · rw [← written]
    exact decoded

end Value

end EntitySearch
