/-
Conditions in texts that are cut.

A word that decides how a test goes on is there or is missed, and it is so again when the text is cut
(`Steady.afterWord`). A condition between parentheses may be passed over because of what stands behind the cut, but
where a test is taken in its place no parenthesis is in front. The values of IN end before a parenthesis, so what a
comma would be followed by behind the cut is of no matter there.
-/
import EntitySearch.Proofs.Query.Condition
import EntitySearch.Proofs.Query.CutOperand

namespace EntitySearch.Query

open Text

variable {α β : Type} {s r t t' u v : List Char}

/-! ## Single tests -/

theorem exactly_eq_ok {w : List Char} {a : Unit} : exactly w s = .ok a r ↔ s = w ++ r := by
  unfold exactly
  by_cases h : w.isPrefixOf s = true
  · obtain ⟨rest, rfl⟩ := List.isPrefixOf_iff_prefix.1 h
    simp
  · simp only [h]
    constructor
    · intro no
      cases no
    · rintro rfl
      exact absurd (List.isPrefixOf_iff_prefix.2 (List.prefix_append w r)) h

theorem exactly_misses_iff {w : List Char} : Misses (exactly w) s ↔ ¬ w <+: s := by
  unfold Misses exactly
  rw [← List.isPrefixOf_iff_prefix]
  split <;> simp_all

/-- the characters of relations are signs -/
def AreInner (w : List Char) : Prop := (w.all fun c => !isGap c && !isNameChar c && c != ';') = true

theorem exactly_steady {w : List Char} (h : AreInner w) : Steady Apart (exactly w) := by
  refine Steady.upgrade ⟨fun h => (exactly_takesFront w).ok h, fun {u v t t' a} h _ _ => ?_⟩ fun {u t a} read => ?_
  · have split : u = w ++ v := (List.append_left_inj t).1 (by simpa using exactly_eq_ok.1 h)
    exact ⟨exactly_eq_ok.2 (by simp [split]), trivial⟩
  · have split : u = w := List.append_cancel_right (exactly_eq_ok.1 read)
    refine .left fun c hc => ?_
    have inner := List.all_eq_true.1 h c (split ▸ List.mem_of_getLast? hc)
    simp only [Bool.and_eq_true, Bool.not_eq_true'] at inner
    exact inner.1.2

/-- a sign that stands partly behind the cut is no sign before it -/
theorem exactly_keepsMisses {w : List Char} (h : AreInner w) : KeepsMisses Apart (exactly w) := by
  intro u t t' missed _ closes
  rw [exactly_misses_iff] at missed ⊢
  rintro ⟨x, front⟩
  apply missed
  rcases List.append_eq_append_iff.1 front with ⟨m, rfl, -⟩ | ⟨m, rfl, rfl⟩
  · exact ⟨m ++ t, (List.append_assoc ..).symm⟩
  · cases m with
    | nil => exact ⟨t, by simp⟩
    | cons c m =>
      have inner := List.all_eq_true.1 h c (by simp)
      simp only [Bool.and_eq_true, Bool.not_eq_true', bne_iff_ne] at inner
      exact absurd rfl (closes.blank.head_ne inner.1.1 inner.2)

theorem relation_steady : Steady Apart relation := by
  have sign (w : List Char) (h : AreInner w) (r : Relation) : Steady Apart (mapped (fun _ => r) (exactly w)) :=
    (exactly_steady h).mapped _
  have passed (w : List Char) (h : AreInner w) (r : Relation) : KeepsMisses Apart (mapped (fun _ => r) (exactly w)) :=
    fun missed hu closes => (exactly_keepsMisses h (mapped_misses.1 missed) hu closes).mapped _
  exact Steady.spaced <| (sign _ (by rfl) _).either (passed _ (by rfl) _) <|
    (sign _ (by rfl) _).either (passed _ (by rfl) _) <| (sign _ (by rfl) _).either (passed _ (by rfl) _) <|
      (sign _ (by rfl) _).either (passed _ (by rfl) _) <| (sign _ (by rfl) _).either (passed _ (by rfl) _) <|
        (sign _ (by rfl) _).either (passed _ (by rfl) _) (sign _ (by rfl) _)

theorem escapeLiteral_steady : Steady Apart escapeLiteral := by
  refine stringLiteral_steady.spaced.of_iff
    (g := fun text => if text.toList.length = 1 then text.toList.head? else none) fun s c r => ?_
  unfold escapeLiteral
  cases spaced stringLiteral s with
  | ok text rest =>
    simp only [Outcome.andThen]
    split
    · rename_i c' single
      constructor
      · rintro ⟨⟩
        exact ⟨text, rfl, by simp [single]⟩
      · rintro ⟨_, ⟨⟩, same⟩
        obtain rfl : c' = c := by simpa [single] using same
        rfl
    · rename_i other
      have not_one : text.toList.length ≠ 1 := fun one => (List.length_eq_one_iff.1 one).elim other
      constructor
      · rintro ⟨⟩
      · rintro ⟨_, ⟨⟩, same⟩
        rw [if_neg not_one] at same
        cases same
  | miss | fail => simp [Outcome.andThen]

section

variable (subject : Operand) (negated : Bool)

theorem nullTest_steady : Steady Apart (nullTest subject) :=
  ((keyword_steady (by rfl)).present (keyword_declines (by rfl)).misses).followed fun _ =>
    ((keyword_steady (by rfl)).require _).mapped _

theorem rangeTest_steady : Steady Apart (rangeTest subject negated) :=
  (operand_steady.require _).followed fun _ =>
    ((keyword_steady (by rfl)).require _).andRead ((operand_steady.require _).mapped _)

theorem comma_steady : Steady Apart (spaced (sign ',')) := (sign_lexeme (by rfl)).spaced.toSteady

/-- the values end before a parenthesis, where no comma is, although what stands behind a comma might be a number only
when the text is cut -/
theorem values_steady : Steady Apart (thenDrop (separated (spaced (sign ',')) operand) (spaced (sign ')'))) := by
  have further : Steady Apart (andRead (spaced (sign ',')) operand) := comma_steady.andRead operand_steady
  have closer : Steady Apart (spaced (sign ')')) := (sign_lexeme (by rfl)).spaced.toSteady
  have suffix : ∀ {s r a}, thenDrop (separated (spaced (sign ',')) operand) (spaced (sign ')')) s = .ok a r → r <:+ s :=
    fun h => (((sign_takesFront ',').spaced.separated operand_takesFront).thenDrop (sign_takesFront ')').spaced).ok h
  refine ⟨suffix, fun {u v t t' as} h hv closes => ?_⟩
  rw [separated, separatedTail_eq_many] at h ⊢
  obtain ⟨as, m, values, closing⟩ := followed_eq_ok.1 h
  obtain ⟨_, rest, parenthesis, given⟩ := followed_eq_ok.1 closing
  cases given
  obtain ⟨first, m', value, more⟩ := followed_eq_ok.1 values
  obtain ⟨others, found, rfl⟩ := mapped_eq_ok.1 more
  obtain ⟨x, rfl⟩ := closer.suffix parenthesis
  rw [← List.append_assoc] at parenthesis found
  obtain ⟨y, rfl⟩ := further.many_suffix found
  rw [← List.append_assoc] at found value
  obtain ⟨closed, hx⟩ := closer.ok parenthesis hv closes
  have no_comma : Misses (spaced (sign ',')) (x ++ v ++ t') := by
    obtain ⟨_, first_sign, -⟩ := spaced_eq_ok.1 closed
    refine spaced_misses.2 (sign_misses ?_)
    rw [sign_eq_ok.1 first_sign]
    simp
  obtain ⟨found', hy⟩ := further.many_of found hx closes (no_comma.andRead _)
  obtain ⟨value', hu⟩ := operand_steady.ok value hy closes
  exact ⟨thenDrop_ok (followed_eq_ok.2 ⟨_, _, value', mapped_ok found' _⟩) closed, hu⟩

theorem listTest_steady : Steady Apart (listTest subject negated) :=
  (((sign_lexeme (by rfl)).spaced.toSteady.andRead values_steady).require _).mapped _

theorem patternTest_steady : Steady Apart (patternTest subject negated) := by
  have escape : Declines Apart (andRead (keyword "ESCAPE") (require .escapeLiteral escapeLiteral)) :=
    (keyword_declines (by rfl)).before fun _ => .require _ _
  exact (operand_steady.require _).followed fun _ =>
    (((keyword_steady (by rfl)).andRead (escapeLiteral_steady.require _)).optional escape.misses).mapped _

theorem comparison_steady : Steady Apart (comparison subject) :=
  (relation_steady.blaming _).followed fun _ => (operand_steady.require _).mapped _

end

/-- a word is there or is missed -/
theorem keyword_ok_or_misses {word : String} (hw : IsWord word) (s : List Char) :
    (∃ r, keyword word s = .ok () r) ∨ Misses (keyword word) s := by
  rw [keyword_eq, spaced_misses]
  by_cases h : lead (s.dropWhile isGap) = lower word.toList
  · exact .inl ⟨_, spaced_eq_ok.2 ⟨_, wordFront_front h, rfl⟩⟩
  · exact .inr (wordFront_misses hw h)

theorem afterWord_eq_ok {word : String} (hw : IsWord word) {p q : Reader α} {a : α} : afterWord word p q s = .ok a r ↔
    (∃ m, keyword word s = .ok () m ∧ p m = .ok a r) ∨ Misses (keyword word) s ∧ q s = .ok a r := by
  rcases keyword_ok_or_misses hw s with ⟨m, h⟩ | missed
  · have there : ¬ Misses (keyword word) s := fun missed => misses_ne_ok missed h
    simp [afterWord, h, there]
  · rw [afterWord_misses missed]
    have no : ∀ m, keyword word s ≠ .ok () m := fun m => misses_ne_ok missed
    simp [missed, no]

theorem Steady.afterWord {word : String} (hw : IsWord word) {p q : Reader α} (hp : Steady Apart p)
    (hq : Steady Apart q) : Steady Apart (afterWord word p q) where
  suffix h := by
    rcases (afterWord_eq_ok hw).1 h with ⟨m, there, read⟩ | ⟨-, read⟩
    · exact (hp.suffix read).trans ((keyword_steady hw).suffix there)
    · exact hq.suffix read
  ok h hv closes := by
    rcases (afterWord_eq_ok hw).1 h with ⟨m, there, read⟩ | ⟨missed, read⟩
    · obtain ⟨x, rfl⟩ := hp.suffix read
      rw [← List.append_assoc] at there read
      obtain ⟨read', hx⟩ := hp.ok read hv closes
      obtain ⟨there', hu⟩ := (keyword_steady hw).ok there hx closes
      exact ⟨(afterWord_eq_ok hw).2 (.inl ⟨_, there', read'⟩), hu⟩
    · obtain ⟨read', hu⟩ := hq.ok read hv closes
      exact ⟨(afterWord_eq_ok hw).2 (.inr ⟨(keyword_declines hw).misses missed hu closes, read'⟩), hu⟩

/-- without NOT a comparison is read from where NOT was looked for, which is where it stands -/
theorem testTail_eq (subject : Operand) : testTail subject = followed (present (keyword "NOT")) fun negated =>
    afterWord "BETWEEN" (rangeTest subject negated)
      (afterWord "IN" (listTest subject negated)
        (afterWord "LIKE" (patternTest subject negated)
          (if negated then fun s => .fail ⟨s, [.afterNot]⟩ else comparison subject))) := by
  funext s
  unfold testTail followed
  rcases keyword_ok_or_misses (show IsWord "NOT" from rfl) s with ⟨m, h⟩ | missed
  · rw [present_ok h]
    rfl
  · rw [present_misses missed]
    simp only [Outcome.andThen, afterWord]
    rfl

theorem fails_steady {p : Reader α} (h : ∀ s a r, p s ≠ .ok a r) : Steady Apart p where
  suffix read := absurd read (h _ _ _)
  ok read := absurd read (h _ _ _)

theorem testTail_steady (subject : Operand) : Steady Apart (testTail subject) := by
  rw [testTail_eq]
  refine ((keyword_steady (by rfl)).present (keyword_declines (by rfl)).misses).followed fun negated => ?_
  refine .afterWord (by rfl) (rangeTest_steady subject negated) ?_
  refine .afterWord (by rfl) (listTest_steady subject negated) ?_
  refine .afterWord (by rfl) (patternTest_steady subject negated) ?_
  cases negated with
  | true => exact fails_steady fun s a r h => by cases h
  | false => exact comparison_steady subject

theorem test_steady : Steady Apart test :=
  operand_steady.followed fun subject => .afterWord (by rfl) (nullTest_steady subject) (testTail_steady subject)

/-! ## AND, OR, NOT and parentheses -/

section

variable {part inner : Reader (Condition Operand)}

theorem Steady.chain (hp : Steady Apart part) {word : String} (hw : IsWord word) (complaint : Complaint)
    (connective : List (Condition Operand) → Condition Operand) :
    Steady Apart (chain word complaint connective part) := by
  have further : Declines Apart (Query.andRead (keyword word) (Query.require complaint part)) :=
    (keyword_declines hw).before fun _ => .require _ _
  exact hp.followed fun _ => (((keyword_steady hw).andRead (hp.require _)).many further.misses).mapped _

theorem Steady.disjunction (hp : Steady Apart part) : Steady Apart (disjunction part) :=
  (hp.chain (by rfl) _ _).chain (by rfl) _ _

theorem Steady.parenthesized (hi : Steady Apart inner) : Steady Apart (parenthesized inner) :=
  (sign_lexeme (by rfl)).spaced.toSteady.andRead (hi.thenDrop closing_steady)

end

/-- where a test is, there is no parenthesis: the induction is on the room for further levels -/
theorem negation_steady (room : Nat) : Steady Apart (negation room) := by
  induction room with
  | zero => exact fails_steady fun s a r h => by cases h
  | succ room ih =>
    have not : Declines Apart (andRead (keyword "NOT") (firmly (mapped Condition.not (negation room)))) :=
      (keyword_declines (by rfl)).before fun _ => .firmly _
    refine ((keyword_steady (by rfl)).andRead (ih.mapped _).firmly).either not.misses ?_
    refine ih.disjunction.parenthesized.either_of test_steady fun {u v t t' a} _ taken hu closes => ?_
    have no_parenthesis : Misses (spaced (sign '(')) (u ++ t) := by
      refine spaced_misses.2 (sign_misses fun front => ?_)
      exact misses_ne_ok ((operand_misses_parenthesis front).followed _) taken
    exact ((sign_declines rfl (by decide) _).spaced.misses no_parenthesis hu closes).andRead _

theorem condition_steady : Steady Apart condition := (negation_steady _).disjunction

end EntitySearch.Query
