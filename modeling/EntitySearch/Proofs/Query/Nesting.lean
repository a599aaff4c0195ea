/-
The nesting limit of conditions.

`Nested level k c ts` is a `Phrase` with its depth counted: some test stands in `k` NOTs and parentheses, and none in
more. What is nested as deep as there is room is `TooDeep`: it fails for good, and the innermost complaint is the one
of the limit. What stands before the deep part is read, and what is around it passes the failure on, with complaints
that come behind the first (`nested_tooDeep`). So a condition is read to the end of its text up to the limit and fails
beyond it, and no query that was read has a deep tree (`nesting_limit`).
-/
import EntitySearch.Proofs.Query.Depth
import EntitySearch.Proofs.Query.Statement

namespace EntitySearch.Query

open Text

variable {α β : Type} {t : Token} {ts us : List Token} {s m r text : List Char} {word : String} {c : Condition Operand}
  {k room : Nat}

/-! ## Nesting, counted -/

mutual

/-- the ways to write a condition whose deepest test stands in just so many NOTs and parentheses -/
inductive Nested : Level → (depth : Nat) → Condition Operand → List Token → Prop where
  | or {k : Nat} {cs : List (Condition Operand)} {ts : List Token} : NestedChain "OR" .conjunction k cs ts →
      Nested .disjunction k (.or cs) ts
  | and {k : Nat} {cs : List (Condition Operand)} {ts : List Token} : NestedChain "AND" .negation k cs ts →
      Nested .conjunction k (.and cs) ts
  | not {k : Nat} {c : Condition Operand} {t : Token} {ts : List Token} : Keyword "NOT" t → Nested .negation k c ts →
      Nested .negation (k + 1) (.not c) (t :: ts)
  | parentheses {k : Nat} {c : Condition Operand} {ts : List Token} : Nested .disjunction k c ts →
      Nested .negation (k + 1) c (.opening :: (ts ++ [.closing]))
  | test {c : Condition Operand} {ts : List Token} : WrittenTest c ts → Nested .negation 0 c ts
  | conjunction {k : Nat} {c : Condition Operand} {ts : List Token} : Nested .conjunction k c ts →
      Nested .disjunction k c ts
  | negation {k : Nat} {c : Condition Operand} {ts : List Token} : Nested .negation k c ts →
      Nested .conjunction k c ts

/-- conditions with a word between them, the deepest of which is nested so deep -/
inductive NestedChain : (word : String) → Level → (depth : Nat) → List (Condition Operand) → List Token → Prop where
  | one {word : String} {level : Level} {k : Nat} {c : Condition Operand} {ts : List Token} : Nested level k c ts →
      NestedChain word level k [c] ts
  | cons {word : String} {level : Level} {k l : Nat} {c : Condition Operand} {cs : List (Condition Operand)} {t : Token}
      {ts us : List Token} : Nested level k c ts → Keyword word t → NestedChain word level l cs us →
      NestedChain word level (max k l) (c :: cs) (ts ++ t :: us)

end

mutual

/-- what is nested so deep is a phrase wherever that much is allowed -/
theorem Nested.phrase {level : Level} {k n : Nat} {c : Condition Operand} {ts : List Token} (h : Nested level k c ts)
    (deep : k ≤ n) : Phrase level n c ts := by
  match h with
  | .or parts => exact .or (parts.chain deep)
  | .and parts => exact .and (parts.chain deep)
  | .not word inner =>
    obtain ⟨n, rfl⟩ := Nat.exists_eq_add_of_le' deep
    exact .not word (inner.phrase (Nat.le_of_succ_le_succ deep))
  | .parentheses inner =>
    obtain ⟨n, rfl⟩ := Nat.exists_eq_add_of_le' deep
    exact .parentheses (inner.phrase (Nat.le_of_succ_le_succ deep))
  | .test written => exact .test written
  | .conjunction inner => exact .conjunction (inner.phrase deep)
  | .negation inner => exact .negation (inner.phrase deep)

theorem NestedChain.chain {word : String} {level : Level} {k n : Nat} {cs : List (Condition Operand)} {ts : List Token}
    (h : NestedChain word level k cs ts) (deep : k ≤ n) : Chain word level n cs ts := by
  match h with
  | .one inner => exact .one (inner.phrase deep)
  | .cons first keyword rest =>
    exact .cons (first.phrase (le_of_max_le_left deep)) keyword (rest.chain (le_of_max_le_right deep))

end

mutual

/-- whatever is a phrase is nested to some depth, which is allowed -/
theorem Phrase.nested {level : Level} {n : Nat} {c : Condition Operand} {ts : List Token} (h : Phrase level n c ts) :
    ∃ k ≤ n, Nested level k c ts := by
  match h with
  | .or parts =>
    obtain ⟨k, deep, parts⟩ := parts.nested
    exact ⟨k, deep, .or parts⟩
  | .and parts =>
    obtain ⟨k, deep, parts⟩ := parts.nested
    exact ⟨k, deep, .and parts⟩
  | .not word inner =>
    obtain ⟨k, deep, inner⟩ := inner.nested
    exact ⟨k + 1, Nat.succ_le_succ deep, .not word inner⟩
  | .parentheses inner =>
    obtain ⟨k, deep, inner⟩ := inner.nested
    exact ⟨k + 1, Nat.succ_le_succ deep, .parentheses inner⟩
  | .test written => exact ⟨0, Nat.zero_le _, .test written⟩
  | .conjunction inner =>
    obtain ⟨k, deep, inner⟩ := inner.nested
    exact ⟨k, deep, .conjunction inner⟩
  | .negation inner =>
    obtain ⟨k, deep, inner⟩ := inner.nested
    exact ⟨k, deep, .negation inner⟩

theorem Chain.nested {word : String} {level : Level} {n : Nat} {cs : List (Condition Operand)} {ts : List Token}
    (h : Chain word level n cs ts) : ∃ k ≤ n, NestedChain word level k cs ts := by
  match h with
  | .one inner =>
    obtain ⟨k, deep, inner⟩ := inner.nested
    exact ⟨k, deep, .one inner⟩
  | .cons first keyword rest =>
    obtain ⟨k, deep, first⟩ := first.nested
    obtain ⟨l, deep', rest⟩ := rest.nested
    exact ⟨max k l, max_le deep deep', .cons first keyword rest⟩

end

/-! ## Failing for the depth -/

/-- the reader fails for good, and the innermost complaint is that the nesting is too deep -/
def TooDeep (p : Reader α) (s : List Char) : Prop :=
  ∃ fault, p s = .fail fault ∧ fault.complaints.head? = some .tooDeep

namespace TooDeep

variable {p : Reader α} {a : α}

theorem followed (h : TooDeep p s) (f : α → Reader β) : TooDeep (followed p f) s := by
  obtain ⟨fault, h, innermost⟩ := h
  exact ⟨fault, by simp only [Query.followed, h, Outcome.andThen], innermost⟩

theorem followed_ok {f : α → Reader β} (hp : p s = .ok a m) (h : TooDeep (f a) m) :
    TooDeep (Query.followed p f) s := by
  obtain ⟨fault, h, innermost⟩ := h
  exact ⟨fault, by rw [Query.followed_ok hp, h], innermost⟩

theorem mapped (h : TooDeep p s) (f : α → β) : TooDeep (mapped f p) s := by
  obtain ⟨fault, h, innermost⟩ := h
  exact ⟨fault, by simp only [Query.mapped, h, Outcome.map], innermost⟩

theorem either_left (h : TooDeep p s) (q : Reader α) : TooDeep (either p q) s := by
  obtain ⟨fault, h, innermost⟩ := h
  exact ⟨fault, by simp only [either, h, Outcome.orElse], innermost⟩

theorem either_right {q : Reader α} (missed : Misses p s) (h : TooDeep q s) : TooDeep (either p q) s := by
  obtain ⟨fault, h, innermost⟩ := h
  exact ⟨fault, (either_misses missed).trans h, innermost⟩

theorem firmly (h : TooDeep p s) : TooDeep (firmly p) s := by
  obtain ⟨fault, h, innermost⟩ := h
  exact ⟨fault, by simp only [Query.firmly, h, Outcome.firm], innermost⟩

/-- a complaint from further out does not become the innermost one -/
theorem require (h : TooDeep p s) (complaint : Complaint) : TooDeep (require complaint p) s := by
  obtain ⟨fault, h, innermost⟩ := h.firmly
  refine ⟨{ fault with complaints := fault.complaints ++ [complaint] }, ?_, ?_⟩
  · simp only [Query.require, blaming, h, Outcome.blame]
  · rw [List.head?_append, innermost, Option.some_or]

theorem many (h : TooDeep p s) : TooDeep (many p) s := by
  obtain ⟨fault, h, innermost⟩ := h
  exact ⟨fault, by rw [Query.many, h], innermost⟩

theorem many_ok (hp : p s = .ok a m) (shorter : m.length < s.length) (h : TooDeep (Query.many p) m) :
    TooDeep (Query.many p) s := by
  obtain ⟨fault, h, innermost⟩ := h
  exact ⟨fault, by rw [Query.many_ok hp shorter, h, Outcome.map], innermost⟩

end TooDeep

theorem negation_tooDeep_not (h : Keyword "NOT" t) (inner : ∀ m, Spells ts m r → TooDeep (negation room) m)
    (spells : Spells (t :: ts) s r) : TooDeep (negation (room + 1)) s := by
  obtain ⟨m, first, second⟩ := spells.split
  have body := ((inner m second).mapped Condition.not).firmly
  exact .either_left (.followed_ok (keyword_reads h rfl (fun _ => True) s m first trivial) body) _

theorem negation_tooDeep_parentheses (inner : ∀ m m', Spells ts m m' → TooDeep (disjunction (negation room)) m)
    (spells : Spells (.opening :: (ts ++ [.closing])) s r) : TooDeep (negation (room + 1)) s := by
  have no_not : lead s ≠ lower "NOT".toList := lead_ne spells.head rfl (by rfl)
  refine .either_right ((keyword_misses spells.clear (by rfl) no_not).andRead _) (.either_left ?_ _)
  obtain ⟨m, first, second⟩ := spells.split
  obtain ⟨m', body, -⟩ := Spells.append_iff.1 second
  exact .followed_ok (sign_reads (t := .opening) (c := '(') rfl (fun _ => True) s m first trivial)
    ((inner m m' body).followed _)

section

variable {words : List String} {part : Reader (Condition Operand)} {complaint : Complaint}

/-- the first part is read if it is not too deep, and then it depends on the others -/
theorem chain_tooDeep_rest (hwords : ∀ w ∈ words, lower word.toList ≠ lower w.toList) (hw : IsWord word)
    (connective : List (Condition Operand) → Condition Operand) (h : Keyword word t)
    (first : Reads part ts c (Stop [] words))
    (rest : ∀ m, Spells (t :: us) m r → TooDeep (furtherParts word complaint part) m)
    (spells : Spells (ts ++ t :: us) s r) : TooDeep (chain word complaint connective part) s := by
  obtain ⟨m, before, behind⟩ := Spells.append_iff.1 spells
  have read := first s m before (stop_keyword behind h hw rfl hwords)
  exact .followed_ok read ((rest m behind).mapped _)

/-- a part behind the first one is looked for when its word is there -/
theorem furtherParts_tooDeep (h : Keyword word t) (hw : IsWord word) (inner : ∀ m, Spells ts m r → TooDeep part m)
    (spells : Spells (t :: ts) s r) : TooDeep (furtherParts word complaint part) s := by
  obtain ⟨m, before, behind⟩ := spells.split
  have read := keyword_reads h hw (fun _ => True) s m before trivial
  exact (TooDeep.followed_ok read ((inner m behind).require complaint)).many

theorem furtherParts_tooDeep_rest {u : Token} (hwords : ∀ w ∈ words, lower word.toList ≠ lower w.toList)
    (hw : IsWord word) (h : Keyword word t) (h' : Keyword word u) (first : Reads part ts c (Stop [] words))
    (rest : ∀ m, Spells (u :: us) m r → TooDeep (furtherParts word complaint part) m)
    (spells : Spells (t :: (ts ++ u :: us)) s r) : TooDeep (furtherParts word complaint part) s := by
  obtain ⟨m, before, behind⟩ := Spells.append_iff.1 (show Spells (t :: ts ++ u :: us) s r from spells)
  have read := part_reads h hw complaint first s m before (stop_keyword behind h' hw rfl hwords)
  exact .many_ok read before.length_lt (rest m behind)

end

mutual

/-- **What is nested deeper than there is room for fails for good**, wherever the deep part stands. The induction is on
how the condition is written; each NOT and each parenthesis takes one level from the depth and one from the room. -/
theorem nested_tooDeep {level : Level} {k : Nat} {c : Condition Operand} {ts : List Token} (h : Nested level k c ts)
    (wf : c.WellFormed) {room : Nat} (deep : room ≤ k) {s r : List Char} (spells : Spells ts s r) :
    TooDeep (level.reader room) s := by
  match h, wf, room with
  | .or parts, wf, room => exact nestedChain_tooDeep parts wf.2 deep .afterOr .or rfl (by decide) spells
  | .and parts, wf, room => exact nestedChain_tooDeep parts wf.2 deep .afterAnd .and rfl (by decide) spells
  | .not _ _, _, 0 => exact ⟨_, rfl, rfl⟩
  | .not word inner, wf, room + 1 =>
    have inside : room ≤ _ := Nat.le_of_succ_le_succ deep
    exact negation_tooDeep_not word (fun m spells => nested_tooDeep inner wf inside spells) spells
  | .parentheses _, _, 0 => exact ⟨_, rfl, rfl⟩
  | .parentheses inner, wf, room + 1 =>
    have inside : room ≤ _ := Nat.le_of_succ_le_succ deep
    exact negation_tooDeep_parentheses (fun m m' spells => nested_tooDeep inner wf inside spells) spells
  | .test _, _, 0 => exact ⟨_, rfl, rfl⟩
  | .conjunction inner, wf, room => exact (nested_tooDeep inner wf deep spells).followed _
  | .negation inner, wf, room => exact (nested_tooDeep inner wf deep spells).followed _

theorem nestedChain_tooDeep {word : String} {level : Level} {k : Nat} {cs : List (Condition Operand)} {ts : List Token}
    (h : NestedChain word level k cs ts) (wf : Condition.AllWellFormed cs) {room : Nat} (deep : room ≤ k)
    (complaint : Complaint) (connective : List (Condition Operand) → Condition Operand) (hw : IsWord word)
    (hwords : ∀ w ∈ level.words, lower word.toList ≠ lower w.toList) {s r : List Char} (spells : Spells ts s r) :
    TooDeep (chain word complaint connective (level.reader room)) s := by
  match h, wf with
  | .one inner, wf => exact (nested_tooDeep inner wf.1 deep spells).followed _
  | .cons (k := k) first keyword rest, wf =>
    -- either the first part has room enough and another one has not, or it is too deep itself
    rcases Nat.lt_or_ge k room with enough | deep'
    · have read := phrase_reads (first.phrase (Nat.le_refl k)) wf.1 enough
      have others : room ≤ _ := (le_max_iff.1 deep).resolve_left (Nat.not_le_of_lt enough)
      refine chain_tooDeep_rest hwords hw connective keyword read (fun m spells => ?_) spells
      exact nestedRest_tooDeep rest wf.2 others keyword complaint hw hwords spells
    · obtain ⟨m, before, -⟩ := Spells.append_iff.1 spells
      exact (nested_tooDeep first wf.1 deep' before).followed _

/-- the conditions behind the first one of a chain -/
theorem nestedRest_tooDeep {word : String} {level : Level} {k : Nat} {cs : List (Condition Operand)} {t : Token}
    {ts : List Token} (h : NestedChain word level k cs ts) (wf : Condition.AllWellFormed cs) {room : Nat}
    (deep : room ≤ k) (keyword : Keyword word t) (complaint : Complaint) (hw : IsWord word)
    (hwords : ∀ w ∈ level.words, lower word.toList ≠ lower w.toList) {s r : List Char} (spells : Spells (t :: ts) s r) :
    TooDeep (furtherParts word complaint (level.reader room)) s := by
  match h, wf with
  | .one inner, wf =>
    exact furtherParts_tooDeep keyword hw (fun m spells => nested_tooDeep inner wf.1 deep spells) spells
  | .cons (k := k) first keyword' rest, wf =>
    rcases Nat.lt_or_ge k room with enough | deep'
    · have read := phrase_reads (first.phrase (Nat.le_refl k)) wf.1 enough
      have others : room ≤ _ := (le_max_iff.1 deep).resolve_left (Nat.not_le_of_lt enough)
      refine furtherParts_tooDeep_rest hwords hw keyword keyword' read (fun m spells => ?_) spells
      exact nestedRest_tooDeep rest wf.2 others keyword' complaint hw hwords spells
    · obtain ⟨m, before, -⟩ := Spells.append_iff.1 (show Spells (t :: _ ++ _) s r from spells)
      exact furtherParts_tooDeep keyword hw (fun m spells => nested_tooDeep first wf.1 deep' spells) before

end

/-! ## Gaps at the front -/

/-- gaps at the front of the text make no difference -/
def SkipsGaps (p : Reader α) : Prop := ∀ g s, AllGaps g → p (g ++ s) = p s

namespace SkipsGaps

variable {p q : Reader α}

theorem followed (hp : SkipsGaps p) (f : α → Reader β) : SkipsGaps (followed p f) := fun g s hg => by
  rw [Query.followed, Query.followed, hp g s hg]

theorem either (hp : SkipsGaps p) (hq : SkipsGaps q) : SkipsGaps (either p q) := fun g s hg => by
  rw [Query.either, Query.either, hp g s hg, hq g s hg]

theorem spaced (p : Reader α) : SkipsGaps (spaced p) := by
  refine followed (fun g s hg => ?_) _
  simp only [List.dropWhile_append_of_pos hg]

end SkipsGaps

theorem condition_skipsGaps : SkipsGaps condition := by
  have test : SkipsGaps test := (SkipsGaps.spaced _).followed _
  have group : SkipsGaps (parenthesized (disjunction (negation maxNesting))) := (SkipsGaps.spaced _).followed _
  have not : SkipsGaps (andRead (keyword "NOT") (firmly (mapped Condition.not (negation maxNesting)))) :=
    (SkipsGaps.spaced _).followed _
  exact ((not.either (group.either test)).followed _).followed _

/-! ## The limit -/

/-- up to the limit, a condition is read to the end of its text -/
theorem condition_accepts (h : Nested .disjunction k c ts) (wf : c.WellFormed) (laid : Laid ts text) (deep : k ≤ 64) :
    condition text = .ok c [] := by
  obtain ⟨g, s, hg, rfl, -, spells⟩ := laid.spells
  rw [condition_skipsGaps g s hg]
  exact condition_reads (h.phrase (Nat.le_refl k)) wf deep s [] spells (stop_nil [] (by decide))

/-- beyond the limit, it fails for good -/
theorem condition_tooDeep (h : Nested .disjunction k c ts) (wf : c.WellFormed) (laid : Laid ts text) (deep : 64 < k) :
    TooDeep condition text := by
  obtain ⟨g, s, hg, rfl, -, spells⟩ := laid.spells
  rw [TooDeep, condition_skipsGaps g s hg]
  have beyond : maxNesting + 1 ≤ k := deep
  exact nested_tooDeep h wf beyond spells

/-- **The nesting limit is exact, and it bounds the tree.** Whatever the grammar derives is nested to some depth. Its
texts are read with nothing left over up to 64, and beyond that fail for good with the complaint of the limit
innermost. The conditions of a query that was read are at most 131 deep. -/
theorem nesting_limit :
    (∀ c ts text, c.WellFormed → Laid ts text →
      ((∃ n, Phrase .disjunction n c ts) ↔ ∃ k, Nested .disjunction k c ts) ∧
      ∀ k, Nested .disjunction k c ts →
        (k ≤ 64 → condition text = .ok c []) ∧ (64 < k → TooDeep condition text)) ∧
    ∀ text q, parse text = .ok q → q.depth ≤ 131 := by
  refine ⟨fun c ts text wf laid => ⟨⟨?_, ?_⟩, fun k h => ?_⟩, fun text q => parse_depth⟩
  · rintro ⟨n, phrase⟩
    obtain ⟨k, -, nested⟩ := phrase.nested
    exact ⟨k, nested⟩
  · rintro ⟨k, nested⟩
    exact ⟨k, nested.phrase (Nat.le_refl k)⟩
  · exact ⟨condition_accepts h wf laid, condition_tooDeep h wf laid⟩

/-- so many NOTs before a test for a length -/
def unmeasured : Nat → Condition Operand
  | 0 => .isNull (.path ⟨["km"], none⟩) false
  | n + 1 => .not (unmeasured n)

def unmeasuredTokens : Nat → List Token
  | 0 => [token 'k' "m" rfl, token 'i' "s" rfl, token 'n' "ull" rfl]
  | n + 1 => token 'n' "ot" rfl :: unmeasuredTokens n

theorem unmeasured_nested (n : Nat) : Nested .negation n (unmeasured n) (unmeasuredTokens n) := by
  induction n with
  | zero =>
    have km : WrittenPath ⟨["km"], none⟩ [token 'k' "m" rfl] := .plain rfl
    exact .test (.isNull (.path km) (t := token 'i' "s" rfl) rfl .absent (u := token 'n' "ull" rfl) rfl)
  | succ n ih => exact .not (t := token 'n' "ot" rfl) rfl ih

theorem unmeasured_wellFormed (n : Nat) : (unmeasured n).WellFormed := by
  induction n with
  | zero => exact ⟨⟨by decide, by decide, List.forall_mem_nil _⟩, by simp⟩
  | succ n ih => exact ih

/-- the test, or else the NOTs in parentheses before it -/
def measured (n : Nat) : Condition Operand := .or [unmeasured 0, unmeasured n]

def measuredTokens (n : Nat) : List Token :=
  unmeasuredTokens 0 ++ token 'o' "r" rfl :: .opening :: (unmeasuredTokens n ++ [.closing])

theorem measured_nested (n : Nat) : Nested .disjunction (n + 1) (measured n) (measuredTokens n) := by
  have first : Nested .conjunction 0 (unmeasured 0) (unmeasuredTokens 0) := .negation (unmeasured_nested 0)
  have other : Nested .conjunction (n + 1) (unmeasured n) (.opening :: (unmeasuredTokens n ++ [.closing])) :=
    .negation (.parentheses (.conjunction (.negation (unmeasured_nested n))))
  have both : NestedChain "OR" .conjunction (max 0 (n + 1)) [unmeasured 0, unmeasured n] (measuredTokens n) :=
    .cons first (t := token 'o' "r" rfl) rfl (.one other)
  rw [Nat.zero_max] at both
  exact .or both

theorem measured_wellFormed (n : Nat) : (measured n).WellFormed :=
  ⟨Nat.le_refl 2, unmeasured_wellFormed 0, unmeasured_wellFormed n, trivial⟩

/-- 63 NOTs in parentheses behind an OR are read, and 64 are too deep -/
theorem nesting_limit_measured :
    (measured 63).WellFormed ∧ Nested .disjunction 64 (measured 63) (measuredTokens 63) ∧
    condition ((measuredTokens 63).flatMap fun t => ' ' :: t.chars) = .ok (measured 63) [] ∧
    (measured 64).WellFormed ∧ Nested .disjunction 65 (measured 64) (measuredTokens 64) ∧
    TooDeep condition ((measuredTokens 64).flatMap fun t => ' ' :: t.chars) ∧
    ∃ q, parse "from Hike where not km is null" = .ok q ∧ q.depth ≤ 131 := by
  have read : (parse "from Hike where not km is null").toBool = true := by decide +kernel
  have wf := measured_wellFormed
  have limit (n : Nat) := (nesting_limit.1 (measured n) (measuredTokens n) _ (wf n) (laid_spaced _)).2 (n + 1)
    (measured_nested n)
  refine ⟨wf 63, measured_nested 63, (limit 63).1 (by decide), wf 64, measured_nested 64, (limit 64).2 (by decide), ?_⟩
  cases h : parse "from Hike where not km is null" with
  | ok q => exact ⟨q, rfl, nesting_limit.2 _ q h⟩
  | error e =>
    rw [h] at read
    cases read

end EntitySearch.Query
