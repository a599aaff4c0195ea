/-
Operands in texts that are cut.

Literals, parameters, paths and aggregates are taken as they stand before a cut. A number is the one alternative that
may be missed in a text and read when the text is cut: `4.5abc` is no number, and `4` is one. Where another alternative
is taken, though, no digit and no minus sign is in front, and so there is no number in the cut text either.
-/
import EntitySearch.Proofs.Query.CutToken

namespace EntitySearch.Query

open Text

variable {α β : Type} {s r t t' u v : List Char}

/-! ## Texts -/

theorem stringLiteral_steady : Steady Apart stringLiteral := by
  refine Steady.upgrade ⟨fun h => stringLiteral_takesFront.ok h, fun {u v t t' x} h _ closes => ?_⟩ fun {u t x} h => ?_
  · obtain ⟨heq, hr⟩ := stringLiteral_eq_ok.1 h
    have split : u = '\'' :: (doubled x.toList ++ '\'' :: v) := (List.append_left_inj t).1 (by simpa using heq)
    refine ⟨stringLiteral_eq_ok.2 ⟨by simp [split], ?_⟩, trivial⟩
    cases v with
    | nil => exact closes.blank.head_ne (by decide) (by decide)
    | cons c v => exact hr
  · have split : u = ('\'' :: doubled x.toList) ++ ['\''] :=
      (List.append_left_inj t).1 (by simpa using (stringLiteral_eq_ok.1 h).1)
    refine .left fun c hc => ?_
    rw [split, List.getLast?_append_cons] at hc
    cases hc
    decide

theorem stringLiteral_declines : Declines Apart stringLiteral where
  blank hs := stringLiteral_misses (hs.head_ne (by decide) (by decide))
  misses {u t t'} missed _ closes := by
    rw [stringLiteral_misses_iff] at missed ⊢
    cases u with
    | nil => exact closes.blank.head_ne (by decide) (by decide)
    | cons c u => exact missed

/-! ## Numbers -/

theorem run_eq_ok {p : Char → Bool} {x : String} :
    run p s = .ok x r ↔ s.takeWhile p ≠ [] ∧ String.ofList (s.takeWhile p) = x ∧ s.dropWhile p = r := by
  unfold run
  split <;> simp_all

theorem run_misses_iff {p : Char → Bool} : Misses (run p) s ↔ Clear p s := by
  refine ⟨fun missed => ?_, run_misses⟩
  intro c hc
  obtain ⟨rest, rfl⟩ := List.head?_eq_some_iff.1 hc
  by_contra hp
  refine misses_ne_ok missed (run_eq_ok.2 ⟨?_, rfl, rfl⟩)
  simp [Bool.eq_true_of_not_eq_false hp]

theorem digits_declines : Declines Anywhere (run Char.isDigit) where
  blank hs := run_misses hs.clear_digit
  misses {u t t'} missed _ closes := by
    rw [run_misses_iff] at missed ⊢
    cases u with
    | nil => exact closes.blank.clear_digit
    | cons c u => exact clear_cons.2 (clear_cons.1 missed)

theorem digits_steady : Steady Anywhere (run Char.isDigit) where
  suffix h := (run_takesFront _).ok h
  ok h _ closes := by
    obtain ⟨some_digit, rfl, stopped⟩ := run_eq_ok.1 h
    obtain ⟨same, stopped'⟩ := span_cut stopped fun _ => closes.blank.clear_digit
    exact ⟨run_eq_ok.2 ⟨same ▸ some_digit, by rw [same], stopped'⟩, trivial⟩

theorem digits_lexeme : Lexeme Anywhere (run Char.isDigit) where
  toSteady := digits_steady
  idle hs := (digits_declines.blank hs).idle
  heeds {u t t' x r} h _ closes := by
    obtain ⟨-, -, rfl⟩ := run_eq_ok.1 h
    by_cases all : ∀ c ∈ u, c.isDigit = true
    · -- the digits may go on behind the cut
      rcases eq_or_ne u [] with rfl | hne
      · exact .inl (List.forall_mem_nil _)
      · exact .inr (.inr ⟨_, t', run_front hne all closes.blank.clear_digit, closes.blank⟩)
    · refine .inr (.inl ⟨u.dropWhile Char.isDigit, ?_, trivial⟩)
      have other : u.dropWhile Char.isDigit ≠ [] := fun heq => all (List.dropWhile_eq_nil_iff.1 heq)
      rw [List.dropWhile_append, if_neg (by simpa using other)]

theorem unsignedNumber_steady : Steady Anywhere unsignedNumber := by
  have point : Lexeme Anywhere (sign '.') := sign_lexeme_of rfl (sign_steady '.') fun _ => trivial
  have part (f : String → String) : Steady Anywhere (andRead (sign '.') (mapped f (run Char.isDigit))) :=
    point.toSteady.andRead (digits_steady.mapped f)
  have no_part (f : String → String) : Declines Anywhere (andRead (sign '.') (mapped f (run Char.isDigit))) :=
    point.declines (sign_declines rfl (by decide) _).misses fun _ => digits_declines.mapped f
  have no_decimal := digits_lexeme.declines digits_declines.misses fun whole => no_part fun part => whole ++ "." ++ part
  exact (digits_steady.followed fun whole => part _).either no_decimal.misses digits_steady

theorem numberBody_steady : Steady Anywhere numberBody :=
  ((sign_steady '-').present (sign_declines rfl (by decide) _).misses).followed fun _ => unsignedNumber_steady.mapped _

theorem numberLiteral_eq_ok {n : String} :
    numberLiteral s = .ok n r ↔ numberBody s = .ok n r ∧ Clear isNameChar r := by
  rw [numberLiteral_eq]
  cases numberBody s with
  | ok m rest =>
    by_cases h : rest.head?.any isNameChar = true
    · have goes_on : ¬ Clear isNameChar rest := fun clear => by rw [clear.any] at h; cases h
      simp only [Outcome.andThen, h, if_true, Outcome.ok.injEq]
      grind
    · have clear : Clear isNameChar rest := fun c hc => by simpa [hc] using h
      simp only [Outcome.andThen, h, Outcome.ok.injEq]
      grind
  | miss | fail => simp [Outcome.andThen]

theorem numberLiteral_steady : Steady Apart numberLiteral := by
  refine Steady.upgrade ⟨fun h => numberLiteral_takesFront.ok h, fun {u v t t' x} h _ closes => ?_⟩ fun {u t x} h => ?_
  · obtain ⟨body, clear⟩ := numberLiteral_eq_ok.1 h
    refine ⟨numberLiteral_eq_ok.2 ⟨(numberBody_steady.ok body trivial closes).1, ?_⟩, trivial⟩
    cases v with
    | nil => exact closes.blank.clear_name
    | cons c v => exact clear_cons.2 (clear_cons.1 clear)
  · exact .right (numberLiteral_eq_ok.1 h).2

/-- the first characters of numbers -/
def startsNumber (c : Char) : Bool := c == '-' || c.isDigit

theorem numberLiteral_misses_of (h : Clear startsNumber s) : Misses numberLiteral s :=
  numberLiteral_misses fun c hc => by simpa [startsNumber] using h c hc

theorem isGap_of_startsNumber {c : Char} (h : startsNumber c = true) : isGap c = false := by
  simp only [startsNumber, Bool.or_eq_true, beq_iff_eq] at h
  rcases h with rfl | digit
  · rfl
  · by_contra gap
    have other := isNameChar_of_isGap (Bool.eq_true_of_not_eq_false gap)
    rw [isNameChar_of_isDigit digit] at other
    cases other

/-- where another alternative is taken, there is no number when the text is cut -/
theorem Steady.number_or {f : String → α} {late : Reader α} (hl : Steady Apart late)
    (other : ∀ {s}, (∃ c, s.head? = some c ∧ startsNumber c = true) → Misses late s) :
    Steady Apart (Query.either (Query.mapped f numberLiteral) late) := by
  refine (numberLiteral_steady.mapped f).either_of hl fun {u v t t' a} _ taken _ closes => ?_
  refine (numberLiteral_misses_of ?_).mapped f
  cases u with
  | nil =>
    refine closes.blank.clear (fun c gap => Bool.eq_false_of_not_eq_true fun hc => ?_) rfl
    rw [isGap_of_startsNumber hc] at gap
    cases gap
  | cons c u =>
    refine clear_cons.2 (Bool.eq_false_of_not_eq_true fun hc => ?_)
    exact misses_ne_ok (other ⟨c, rfl, hc⟩) taken

/-! ## Words and parameters -/

theorem boolLiteral_steady : Steady Apart boolLiteral :=
  ((keyword_steady (by rfl)).mapped _).either ((keyword_declines (by rfl)).mapped _).misses
    ((keyword_steady (by rfl)).mapped _)

theorem boolLiteral_declines : Declines Apart boolLiteral :=
  ((keyword_declines (by rfl)).mapped _).either ((keyword_declines (by rfl)).mapped _)

theorem namedParameter_steady : Steady Apart namedParameter :=
  (sign_lexeme (by rfl)).toSteady.andRead run_readsWord.lexeme.toSteady

theorem namedParameter_declines : Declines Apart namedParameter :=
  (sign_lexeme (by rfl)).declines (sign_declines rfl (by decide) _).misses fun _ => run_readsWord.declines

/-- a question mark and digits are taken, whatever stands behind them -/
theorem positionalParameter_steady : Steady Apart positionalParameter := by
  refine Steady.upgrade ((sign_steady '?').andRead ((digits_steady.optional digits_declines.misses).mapped _))
    fun {u t a} h => ?_
  obtain ⟨_, m, mark, number⟩ := followed_eq_ok.1 h
  obtain ⟨digits, taken, -⟩ := mapped_eq_ok.1 number
  obtain ⟨word, rfl, word_digits⟩ : ∃ word, m = word ++ t ∧ ∀ c ∈ word, c.isDigit = true := by
    rcases optional_eq_ok.1 taken with ⟨x, -, some_digits⟩ | ⟨-, rfl, -⟩
    · obtain ⟨-, -, stopped⟩ := run_eq_ok.1 some_digits
      refine ⟨m.takeWhile Char.isDigit, ?_, fun c hc => List.mem_takeWhile_imp hc⟩
      rw [← stopped, List.takeWhile_append_dropWhile]
    · exact ⟨[], rfl, List.forall_mem_nil _⟩
  have split : u = '?' :: word := (List.append_left_inj t).1 (by simpa using sign_eq_ok.1 mark)
  exact .mark (show u = [] ++ '?' :: word from split) fun c hc => isNameChar_of_isDigit (word_digits c hc)

theorem positionalParameter_declines : Declines Apart positionalParameter :=
  (sign_declines rfl (by decide) _).before fun _ => (Settles.optional _).mapped _

/-! ## Names and paths -/

/-- a name behind a full stop -/
theorem furtherName_steady : Steady Apart (andRead (sign '.') name) :=
  (sign_lexeme (by rfl)).toSteady.andRead name_readsWord.lexeme.toSteady

theorem furtherName_declines : Declines Apart (andRead (sign '.') name) :=
  (sign_lexeme (by rfl)).declines (sign_declines rfl (by decide) _).misses fun _ => name_readsWord.declines

theorem furtherNames_steady : Steady Apart (many (andRead (sign '.') name)) :=
  furtherName_steady.many furtherName_declines.misses

theorem furtherNames_settles : Settles (many (andRead (sign '.') name)) := by
  refine .many fun s r a h => ?_
  obtain ⟨_, m, point, read⟩ := followed_eq_ok.1 h
  have := (name_takesFront.ok read).length_le
  rw [sign_eq_ok.1 point, List.length_cons]
  omega

/-- a name that is no reserved word -/
def freeName : Reader String := checked isReserved [.path] name

theorem freeName_readsWord : ReadsWord (fun w => (nameOf w).filter fun x => !isReserved x) freeName where
  empty := rfl
  some {s a} h := by
    obtain ⟨word, free⟩ := Option.filter_eq_some_iff.1 h
    exact checked_eq_ok.2 ⟨name_readsWord.some word, by simpa using free⟩
  none {s} h := by
    rw [freeName, checked_misses]
    cases word : nameOf (s.takeWhile isNameChar) with
    | none => exact .inl (name_readsWord.none word)
    | some x =>
      rw [word, Option.filter_eq_none_iff] at h
      exact .inr ⟨x, _, name_readsWord.some word, by simpa using h x rfl⟩

/-- a path begins with a free name -/
theorem plainPath_eq : plainPath = andRead gaps (followed freeName fun first =>
    thenDrop (mapped (first :: ·) (many (andRead (sign '.') name))) gaps) := by
  unfold plainPath
  congr 1
  funext s
  cases h : name s with
  | ok first rest =>
    simp only [followed, freeName, checked, h, Outcome.andThen]
    by_cases reserved : isReserved first = true <;> simp only [reserved] <;> rfl
  | miss | fail => simp only [followed, freeName, checked, h, Outcome.andThen]

theorem plainPath_steady : Steady Apart plainPath := by
  rw [plainPath_eq]
  exact gaps_lexeme.toSteady.andRead (freeName_readsWord.lexeme.toSteady.followed fun _ =>
    (furtherNames_steady.mapped _).thenDrop gaps_lexeme.toSteady)

theorem plainPath_declines : Declines Apart plainPath := by
  rw [plainPath_eq]
  exact (freeName_readsWord.declines.before fun _ => (furtherNames_settles.mapped _).thenDrop .gaps).behind_gaps

/-- what begins no name begins no path -/
theorem plainPath_misses {c : Char} (hs : s.head? = some c) (gap : isGap c = false) (hc : startsName c = false) :
    Misses plainPath s := by
  obtain ⟨rest, rfl⟩ := List.head?_eq_some_iff.1 hs
  have no_gap : gaps (c :: rest) = .ok () (c :: rest) := gaps_eq_ok.2 (clear_cons.2 gap).dropWhile
  have no_name : Misses freeName (c :: rest) := by
    refine freeName_readsWord.none ?_
    rw [List.takeWhile_cons]
    split <;> simp [nameOf, hc]
  rw [plainPath_eq]
  exact .followed_ok no_gap (no_name.followed _)

/-- a character that begins neither a word nor a parameter -/
def BeginsNeither (c : Char) : Prop := (!isGap c && !startsName c && c != ':' && c != '?') = true

theorem beginsNeither_iff {c : Char} :
    BeginsNeither c ↔ isGap c = false ∧ startsName c = false ∧ c ≠ ':' ∧ c ≠ '?' := by
  simp [BeginsNeither, and_assoc]

theorem beginsNeither_of_startsNumber {c : Char} (h : startsNumber c = true) : BeginsNeither c := by
  have gap := isGap_of_startsNumber h
  simp only [startsNumber, Bool.or_eq_true, beq_iff_eq] at h
  rcases h with rfl | hd
  · rfl
  · refine beginsNeither_iff.2 ⟨gap, ?_, ?_, ?_⟩
    · by_contra hn
      rw [isDigit_of_startsName (Bool.eq_true_of_not_eq_false hn)] at hd
      cases hd
    · rintro rfl
      exact absurd hd (by decide)
    · rintro rfl
      exact absurd hd (by decide)

theorem indexOperand_steady : Steady Apart indexOperand := by
  have late : Steady Apart (either (mapped Index.named namedParameter)
      (either (mapped .positional positionalParameter) (mapped .path plainPath))) :=
    (namedParameter_steady.mapped _).either (namedParameter_declines.mapped _).misses <|
      (positionalParameter_steady.mapped _).either (positionalParameter_declines.mapped _).misses <|
        plainPath_steady.mapped _
  refine ((stringLiteral_steady.mapped _).either (stringLiteral_declines.mapped _).misses <| late.number_or ?_).spaced
  rintro s ⟨c, hs, hc⟩
  obtain ⟨gap, no_name, colon, mark⟩ := beginsNeither_iff.1 (beginsNeither_of_startsNumber hc)
  refine ((namedParameter_misses ?_).mapped _).either <| ((positionalParameter_misses ?_).mapped _).either <|
    (plainPath_misses hs gap no_name).mapped _
  · simpa [hs] using colon
  · simpa [hs] using mark

theorem bracketed_steady : Steady Apart bracketed :=
  (sign_lexeme (by rfl)).toSteady.spaced.andRead
    ((indexOperand_steady.require _).thenDrop ((sign_lexeme (by rfl)).toSteady.spaced.require _))

theorem bracketed_declines : Declines Apart bracketed :=
  (sign_declines rfl (by decide) _).spaced.before fun _ => (Settles.require _ _).thenDrop (.require _ _)

theorem pathExpr_steady : Steady Apart pathExpr :=
  plainPath_steady.followed fun _ => (bracketed_steady.optional bracketed_declines.misses).mapped _

theorem pathExpr_declines : Declines Apart pathExpr :=
  plainPath_declines.before fun _ => (Settles.optional _).mapped _

/-! ## Aggregates and operands -/

theorem aggregateName_declines : Declines Apart aggregateName := by
  have name (w : String) (hw : IsWord w) (f : AggregateName) : Declines Apart (mapped (fun _ => f) (keyword w)) :=
    (keyword_declines hw).mapped _
  exact (name _ (by rfl) _).either <| (name _ (by rfl) _).either <| (name _ (by rfl) _).either <|
    (name _ (by rfl) _).either (name _ (by rfl) _)

theorem aggregateName_lexeme : Lexeme Apart aggregateName := by
  have name (w : String) (hw : IsWord w) (f : AggregateName) : Lexeme Apart (mapped (fun _ => f) (keyword w)) :=
    (keyword_lexeme hw).mapped _
  have passed (w : String) (hw : IsWord w) (f : AggregateName) : Declines Apart (mapped (fun _ => f) (keyword w)) :=
    (keyword_declines hw).mapped _
  exact (name _ (by rfl) _).either (passed _ (by rfl) _) <| (name _ (by rfl) _).either (passed _ (by rfl) _) <|
    (name _ (by rfl) _).either (passed _ (by rfl) _) <| (name _ (by rfl) _).either (passed _ (by rfl) _)
      (name _ (by rfl) _)

theorem closing_steady : Steady Apart (require .closingParenthesis (spaced (sign ')'))) :=
  (sign_lexeme (by rfl)).toSteady.spaced.require _

theorem aggregateExpr_steady : Steady Apart aggregateExpr :=
  aggregateName_lexeme.toSteady.followed fun _ => (sign_lexeme (by rfl)).toSteady.spaced.andRead <|
    ((keyword_steady (by rfl)).present (keyword_declines (by rfl)).misses).followed fun _ =>
      ((pathExpr_steady.require _).mapped _).thenDrop closing_steady

/-- without a parenthesis before the cut the name is that of a property, whatever stands behind the cut -/
theorem aggregateExpr_declines : Declines Apart aggregateExpr :=
  aggregateName_lexeme.declines aggregateName_declines.misses fun _ =>
    (sign_declines rfl (by decide) _).spaced.before fun _ => (Settles.present _).followed fun _ =>
      ((Settles.require _ _).mapped _).thenDrop (.require _ _)

/-- an operand that is neither a text nor a number -/
def wordOperand : Reader Operand :=
  either (mapped (fun b => .literal (.bool b)) boolLiteral)
    (either (mapped .named namedParameter)
      (either (mapped .positional positionalParameter)
        (either (mapped .aggregate aggregateExpr) (mapped .path pathExpr))))

theorem wordOperand_misses {c : Char} (hs : s.head? = some c) (h : BeginsNeither c) : Misses wordOperand s := by
  obtain ⟨gap, no_name, colon, mark⟩ := beginsNeither_iff.1 h
  have clear : Clear isGap s := fun d hd => by cases hs.symm.trans hd; exact gap
  have no_letter : c.isAlpha = false := by
    by_contra ha
    rw [startsName_of_isAlpha (Bool.eq_true_of_not_eq_false ha)] at no_name
    cases no_name
  have no_word {w : String} (hw : IsWord w) : Misses (keyword w) s := keyword_misses clear hw (lead_ne hs no_letter hw)
  have no_bool : Misses boolLiteral s := ((no_word (by rfl)).mapped _).either ((no_word (by rfl)).mapped _)
  have no_function : Misses aggregateName s :=
    ((no_word (by rfl)).mapped _).either <| ((no_word (by rfl)).mapped _).either <|
      ((no_word (by rfl)).mapped _).either <| ((no_word (by rfl)).mapped _).either ((no_word (by rfl)).mapped _)
  refine (no_bool.mapped _).either <| ((namedParameter_misses ?_).mapped _).either <|
    ((positionalParameter_misses ?_).mapped _).either <| ((no_function.followed _).mapped _).either <|
      ((plainPath_misses hs gap no_name).followed _).mapped _
  · simpa [hs] using colon
  · simpa [hs] using mark

theorem wordOperand_steady : Steady Apart wordOperand :=
  (boolLiteral_steady.mapped _).either (boolLiteral_declines.mapped _).misses <|
    (namedParameter_steady.mapped _).either (namedParameter_declines.mapped _).misses <|
      (positionalParameter_steady.mapped _).either (positionalParameter_declines.mapped _).misses <|
        (aggregateExpr_steady.mapped _).either (aggregateExpr_declines.mapped _).misses <| pathExpr_steady.mapped _

/-- **An operand is taken as it stands before the cut.** -/
theorem operand_steady : Steady Apart operand := by
  have number_or_word := wordOperand_steady.number_or (f := fun n => .literal (.number n)) <| by
    rintro s ⟨c, hs, hc⟩
    exact wordOperand_misses hs (beginsNeither_of_startsNumber hc)
  exact ((stringLiteral_steady.mapped _).either (stringLiteral_declines.mapped _).misses number_or_word).spaced

/-- no operand begins with a parenthesis -/
theorem operand_misses_parenthesis (h : (s.dropWhile isGap).head? = some '(') : Misses operand s := by
  have no_text : Misses stringLiteral (s.dropWhile isGap) := stringLiteral_misses (by simp [h])
  have no_number : Misses numberLiteral (s.dropWhile isGap) :=
    numberLiteral_misses_of fun c hc => by cases h.symm.trans hc; rfl
  exact spaced_misses.2 ((no_text.mapped _).either ((no_number.mapped _).either (wordOperand_misses h (by rfl))))

end EntitySearch.Query
