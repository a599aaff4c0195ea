/-
Literals and parameters are read as they are written.

A reader of a single token `Takes` it: it reads the token's characters and leaves what stands between it and the next
token, whatever may stand there (`After`). So do the readers of texts, numbers and parameters; each misses by the
character at the front.
-/
import EntitySearch.Proofs.Query.Stop

namespace EntitySearch.Query

open Text

variable {α β : Type} {t : Token} {between m s r : List Char}

/-! ## Single tokens -/

/-- what may stand behind a token -/
structure After (t : Token) (between : List Char) : Prop where
  continues : Clear continues between
  apart : EndsWord t → Clear isNameChar between

/-- the reader reads the token, whatever may stand behind it -/
def Takes (p : Reader α) (t : Token) (a : α) : Prop :=
  ∀ between, After t between → p (t.chars ++ between) = .ok a between

theorem continues_of_isGap {c : Char} (h : isGap c = true) : continues c = false := by
  simp only [isGap, Bool.or_eq_true, beq_iff_eq] at h
  rcases h with ((rfl | rfl) | rfl) | rfl <;> decide

theorem Behind.after (h : Behind t between m) {signs : List Char} {words : List String} (hm : Stop signs words m) :
    After t between :=
  ⟨h.clear (fun _ => continues_of_isGap) fun c hc => (hm.sign c hc).1, h.apart⟩

/-- a token is read with the gaps behind it -/
theorem spaced_reads {p : Reader α} {a : α} (h : Takes p t a) : Reads (spaced p) [t] a (Stop [] []) := by
  refine .of_token fun between r behind hr => ?_
  exact h between (behind.after hr)

theorem Takes.mapped {p : Reader α} {a : α} (h : Takes p t a) (f : α → β) : Takes (mapped f p) t (f a) := by
  intro between after
  exact mapped_ok (h between after) f

theorem Takes.either_left {p : Reader α} {a : α} (h : Takes p t a) (q : Reader α) : Takes (either p q) t a := by
  intro between after
  exact either_ok (h between after) q

/-- an alternative that misses by the first character is passed over -/
theorem Takes.skip {p : Reader α} {f : α → β} {q : Reader β} {b : β} (hp : ∀ s, s.head? = some t.first → Misses p s)
    (h : Takes q t b) : Takes (either (Query.mapped f p) q) t b := by
  intro between after
  have missed : Misses (Query.mapped f p) (t.chars ++ between) := (hp _ rfl).mapped f
  rw [either_misses missed, h between after]

/-! ## Literals and parameters -/

theorem doubled_other {c : Char} {l : List Char} (hc : c ≠ '\'') : doubled (c :: l) = c :: doubled l := by
  simp [doubled]

theorem quotedRest_pair (s : List Char) :
    quotedRest ('\'' :: '\'' :: s) = (quotedRest s).map fun (t, r) => ('\'' :: t, r) := rfl

theorem quotedRest_single (hs : s.head? ≠ some '\'') : quotedRest ('\'' :: s) = some ([], s) := by
  rw [quotedRest]
  rintro rest rfl
  exact hs rfl

theorem quotedRest_other {c : Char} (hc : c ≠ '\'') :
    quotedRest (c :: s) = (quotedRest s).map fun (t, r) => (c :: t, r) := by
  simp [quotedRest, hc]

theorem quotedRest_doubled (l : List Char) (hr : r.head? ≠ some '\'') :
    quotedRest (doubled l ++ '\'' :: r) = some (l, r) := by
  induction l with
  | nil => exact quotedRest_single hr
  | cons c l ih =>
    by_cases hc : c = '\''
    · subst hc
      rw [doubled, List.cons_append, List.cons_append, quotedRest_pair, ih]
      rfl
    · rw [doubled_other hc, List.cons_append, quotedRest_other hc, ih]
      rfl

theorem Clear.head_ne {p : Char → Bool} {c : Char} (h : Clear p s) (hc : p c = true) : s.head? ≠ some c := by
  intro hs
  rw [h c hs] at hc
  cases hc

/-- a text is read back from between its quotes -/
theorem stringLiteral_takes (x : String) : Takes stringLiteral (quotedToken x) x := by
  intro between after
  have chars : (quotedToken x).chars ++ between = '\'' :: (doubled x.toList ++ '\'' :: between) := by
    simp [quotedToken, Token.chars]
  rw [chars, stringLiteral, quotedRest_doubled _ (after.continues.head_ne rfl)]
  simp only [String.ofList_toList]

theorem stringLiteral_misses (h : s.head? ≠ some '\'') : Misses stringLiteral s := by
  cases s with
  | nil => exact ⟨_, rfl⟩
  | cons c s =>
    have hc : c ≠ '\'' := fun heq => h (congrArg some heq)
    exact ⟨⟨c :: s, []⟩, by simp [stringLiteral, hc]⟩

theorem run_front {p : Char → Bool} {l : List Char} (hl : l ≠ []) (hp : ∀ c ∈ l, p c = true) (hr : Clear p r) :
    run p (l ++ r) = .ok (String.ofList l) r := by
  simp only [run, takeWhile_front hp hr, dropWhile_front hp hr, hl, if_false]

theorem run_misses {p : Char → Bool} (h : Clear p s) : Misses (run p) s :=
  ⟨_, by simp only [run, h.takeWhile, if_true]; rfl⟩

theorem continues_of_isDigit {c : Char} (h : c.isDigit = true) : continues c = true := by simp [continues, h]

theorem Clear.mono {p q : Char → Bool} (h : Clear p s) (hpq : ∀ c, q c = true → p c = true) : Clear q s := by
  intro c hc
  by_contra hq
  have other := hpq c (Bool.eq_true_of_not_eq_false hq)
  rw [h c hc] at other
  cases other

theorem unsignedNumber_front {d : List Char} (hd : IsUnsigned d) (hr : Clear continues r) :
    unsignedNumber (d ++ r) = .ok (String.ofList d) r := by
  have no_digit : Clear Char.isDigit r := hr.mono fun _ => continues_of_isDigit
  cases hd with
  | whole hd =>
    have whole := run_front hd.1 hd.2 no_digit
    rw [unsignedNumber, either_misses, whole]
    refine Misses.followed_ok whole ?_
    exact (sign_misses (hr.head_ne rfl)).andRead _
  | @decimal d e hd he =>
    have whole : run Char.isDigit (d ++ ('.' :: (e ++ r))) = .ok (String.ofList d) ('.' :: (e ++ r)) :=
      run_front hd.1 hd.2 (clear_cons.2 rfl)
    have part := run_front he.1 he.2 no_digit
    have joined : String.ofList d ++ "." ++ String.ofList e = String.ofList (d ++ '.' :: e) := by
      apply String.toList_inj.1
      simp
    have point : sign '.' ('.' :: (e ++ r)) = .ok () (e ++ r) := rfl
    rw [List.append_assoc, List.cons_append, unsignedNumber, ← joined]
    refine either_ok ?_ _
    rw [followed_ok whole, andRead_ok point, mapped_ok part]

/-- a number before what follows it is checked -/
def numberBody : Reader String :=
  followed (present (sign '-')) fun negative => mapped (fun n => if negative then "-" ++ n else n) unsignedNumber

theorem numberLiteral_eq (s : List Char) : numberLiteral s =
    (numberBody s).andThen fun n rest => if rest.head?.any isNameChar then .miss ⟨s, [.numeral]⟩ else .ok n rest :=
  rfl

theorem IsDigits.endsInName {d : List Char} (h : IsDigits d) : EndsInName d :=
  endsInName_of_all h.1 fun c hc => isNameChar_of_isDigit (h.2 c hc)

theorem IsUnsigned.endsInName {d : List Char} (h : IsUnsigned d) : EndsInName d := by
  cases h with
  | whole hd => exact hd.endsInName
  | decimal _ he => exact (he.endsInName.append ['.']).append _

theorem IsUnsigned.head {d : List Char} (h : IsUnsigned d) : ∃ c l, d = c :: l ∧ c.isDigit = true := by
  cases h with
  | whole hd =>
    obtain ⟨c, l, rfl⟩ := List.exists_cons_of_ne_nil hd.1
    exact ⟨c, l, rfl, hd.2 c List.mem_cons_self⟩
  | decimal hd _ =>
    obtain ⟨c, l, rfl⟩ := List.exists_cons_of_ne_nil hd.1
    exact ⟨c, _, rfl, hd.2 c List.mem_cons_self⟩

theorem numberBody_front {l : List Char} (hl : IsNumeral l) (hr : Clear continues r) :
    numberBody (l ++ r) = .ok (String.ofList l) r := by
  cases hl with
  | positive hd =>
    obtain ⟨c, rest, rfl, hc⟩ := hd.head
    have no_minus : Misses (sign '-') (c :: rest ++ r) := by
      refine sign_misses fun heq => ?_
      rw [Option.some.inj heq] at hc
      exact absurd hc (by decide)
    rw [numberBody, followed_ok (present_misses no_minus), mapped_ok (unsignedNumber_front hd hr)]
    rfl
  | @negative d hd =>
    have minus : sign '-' ('-' :: d ++ r) = .ok () (d ++ r) := rfl
    rw [numberBody, followed_ok (present_ok minus), mapped_ok (unsignedNumber_front hd hr)]
    have joined : "-" ++ String.ofList d = String.ofList ('-' :: d) := by
      apply String.toList_inj.1
      simp
    simp only [if_true, joined]

theorem IsNumeral.endsWord {digits : String} (h : IsNumeral digits.toList) (plain : Plain digits t) : EndsWord t := by
  have chars : t.chars = digits.toList := plain
  generalize digits.toList = l at h chars
  unfold EndsWord
  rw [chars]
  cases h with
  | positive hd =>
    refine ⟨fun hq => ?_, hd.endsInName⟩
    obtain ⟨c, rest, rfl, hc⟩ := hd.head
    rw [← (List.cons.inj chars).1, hq] at hc
    exact absurd hc (by decide)
  | negative hd =>
    refine ⟨fun hq => ?_, hd.endsInName.append ['-']⟩
    rw [(List.cons.inj chars).1] at hq
    exact absurd hq (by decide)

/-- a number is read as its characters -/
theorem numberLiteral_takes {digits : String} (h : IsNumeral digits.toList) (plain : Plain digits t) :
    Takes numberLiteral t digits := by
  intro between after
  have apart := (after.apart (h.endsWord plain)).any
  have body := numberBody_front h after.continues
  rw [show t.chars = digits.toList from plain, numberLiteral_eq, body]
  simp only [Outcome.andThen, apart, Bool.false_eq_true, if_false, String.ofList_toList]

theorem numberLiteral_misses (h : ∀ c, s.head? = some c → c ≠ '-' ∧ c.isDigit = false) : Misses numberLiteral s := by
  have no_minus : Misses (sign '-') s := sign_misses fun heq => (h _ heq).1 rfl
  have no_digit : Misses (run Char.isDigit) s := run_misses fun c hc => (h c hc).2
  have no_number : Misses unsignedNumber s := (no_digit.followed _).either no_digit
  obtain ⟨fault, body⟩ : Misses numberBody s := Misses.followed_ok (present_misses no_minus) (no_number.mapped _)
  exact ⟨fault, by rw [numberLiteral_eq, body]; rfl⟩

theorem isParameterName_iff {x : String} :
    isParameterName x = true ↔ x.toList ≠ [] ∧ ∀ c ∈ x.toList, isNameChar c = true := by
  simp [isParameterName]

/-- a parameter is read as its name -/
theorem namedParameter_takes {x : String} (h : isParameterName x = true) : Takes namedParameter (namedToken x) x := by
  intro between after
  obtain ⟨hx, hchars⟩ := isParameterName_iff.1 h
  have ends : EndsWord (namedToken x) :=
    ⟨show ':' ≠ '?' by decide, (endsInName_of_all hx hchars).append [':']⟩
  have colon : sign ':' ((namedToken x).chars ++ between) = .ok () (x.toList ++ between) := rfl
  rw [namedParameter, andRead_ok colon, run_front hx hchars (after.apart ends), String.ofList_toList]

theorem namedParameter_misses (h : s.head? ≠ some ':') : Misses namedParameter s := (sign_misses h).andRead _

/-- a positional parameter is read as its number, if it has one -/
theorem positionalParameter_takes {position : Option Nat} (h : WrittenPosition position t)
    (fits : IsPosition position) : Takes positionalParameter t position := by
  intro between after
  have no_digit : Clear Char.isDigit between := after.continues.mono fun _ => continues_of_isDigit
  cases h with
  | none =>
    have mark : sign '?' ('?' :: between) = .ok () between := rfl
    show positionalParameter ('?' :: between) = _
    rw [positionalParameter, andRead_ok mark, mapped_ok (optional_misses (run_misses no_digit))]
    rfl
  | @some n digits hd hn =>
    have mark : sign '?' ('?' :: (digits ++ between)) = .ok () (digits ++ between) := rfl
    show positionalParameter ('?' :: (digits ++ between)) = _
    rw [positionalParameter, andRead_ok mark, mapped_ok (optional_ok (run_front hd.1 hd.2 no_digit))]
    simp [parameterNumber, hn, fits n rfl]

theorem positionalParameter_misses (h : s.head? ≠ some '?') : Misses positionalParameter s := (sign_misses h).andRead _

end EntitySearch.Query
