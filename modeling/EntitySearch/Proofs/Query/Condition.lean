/-
Conditions are read as they are written.

A test ends in an operand or a word, so only ESCAPE could go on one (`test_reads`). The conditions of a level are read
by the reader of the level, with room for as many NOTs and parentheses as there are, and end before the words of the
levels that bind as tightly or tighter (`phrase_reads`). The induction is on how the condition is written, over phrases
and chains at once.
-/
import EntitySearch.Proofs.Query.Operand

namespace EntitySearch.Query

open Text

variable {α β : Type} {t u : Token} {ts us flag : List Token} {s m r between : List Char} {word : String}
  {stop : List Char → Prop} {subject : Operand} {c : Condition Operand}

/-! ## Words that decide -/

theorem Reads.afterWord_then {p q : Reader α} {a : α} (h : Keyword word t) (hw : IsWord word) (hp : Reads p ts a stop) :
    Reads (afterWord word p q) (t :: ts) a stop := by
  intro s r spells hr
  obtain ⟨m, first, second⟩ := spells.split
  simp only [afterWord, keyword_reads h hw (fun _ => True) s m first trivial]
  exact hp m r second hr

theorem afterWord_misses {p q : Reader α} (h : Misses (keyword word) s) : afterWord word p q s = q s := by
  obtain ⟨fault, h⟩ := h
  simp only [afterWord, h]

theorem Reads.afterWord_else {p q : Reader α} {a : α} (h : ∀ s r, Spells ts s r → stop r → Misses (keyword word) s)
    (hq : Reads q ts a stop) : Reads (afterWord word p q) ts a stop := by
  intro s r spells hr
  rw [afterWord_misses (h s r spells hr), hq s r spells hr]

/-- a word that is there, or else the next one, stops what waits for neither -/
theorem stop_flagged {other : String} {b : Bool} {signs : List Char} {words : List String}
    (hf : WrittenFlag other b flag) (ho : IsWord other) (h : Keyword word t) (hw : IsWord word)
    (spells : Spells (flag ++ t :: ts) m r) (hsigns : AreSigns signs)
    (hwords : ∀ w ∈ words, lower other.toList ≠ lower w.toList ∧ lower word.toList ≠ lower w.toList) :
    Stop signs words m := by
  cases hf with
  | absent => exact stop_keyword spells h hw hsigns fun w hmem => (hwords w hmem).2
  | present hp => exact stop_keyword spells hp ho hsigns fun w hmem => (hwords w hmem).1

/-! ## Single tests -/

section

variable {c d : Char}

theorem exactly_one : exactly [c] (c :: s) = .ok () s := by
  simp [exactly]

theorem exactly_two : exactly [c, d] (c :: d :: s) = .ok () s := by
  simp [exactly]

theorem exactly_other {w : List Char} (h : d ≠ c) : exactly (d :: w) (c :: s) = .miss ⟨c :: s, []⟩ := by
  simp [exactly, h]

theorem exactly_short (h : s.head? ≠ some d) : exactly [c, d] (c :: s) = .miss ⟨c :: s, []⟩ := by
  cases s with
  | nil => simp [exactly]
  | cons e s =>
    have : d ≠ e := fun heq => h (congrArg some heq.symm)
    simp [exactly, this]

end

/-- the sign of a relation is read if nothing behind it would go on it -/
theorem relation_reads {rel : Relation} (h : WrittenRelation rel t) : Reads relation [t] rel Opens := by
  rw [relation]
  refine .of_token fun between r behind opens => ?_
  have no_equal := behind.head_ne rfl (opens.sign '=' (by decide))
  have no_greater := behind.head_ne rfl (opens.sign '>' (by decide))
  have other : ('>' :: between).head? ≠ some '=' := by simp
  cases h <;>
    simp [Token.chars, either, mapped, Outcome.orElse, Outcome.map, exactly_one, exactly_two, exactly_other,
      exactly_short no_equal, exactly_short no_greater, exactly_short other]

/-- an operand, NOT or nothing, and then a word with what belongs to it -/
theorem test_reads_word {negated : Bool} {os : List Token} (ho : WrittenOperand subject os) (wf : subject.WellFormed)
    (hf : WrittenFlag "NOT" negated flag) (ht : Keyword word t) (hw : IsWord word)
    (other : ∀ w ∈ ["IS", "NOT"], lower word.toList ≠ lower w.toList)
    (h : ∀ last, Reads (afterWord "BETWEEN" (rangeTest subject negated) (afterWord "IN" (listTest subject negated)
      (afterWord "LIKE" (patternTest subject negated) last))) (t :: ts) c stop) :
    Reads test (os ++ (flag ++ t :: ts)) c stop := by
  have front : ∀ m r, Spells (flag ++ t :: ts) m r → Stop [] ["IS"] m := by
    intro m r spells
    refine stop_flagged hf rfl ht hw spells rfl (List.forall_mem_singleton.2 ?_)
    exact ⟨by decide, other _ (by decide)⟩
  have tail : Reads (testTail subject) (flag ++ t :: ts) c stop := by
    intro s r spells hr
    obtain ⟨m, first, second⟩ := Spells.append_iff.1 spells
    have next : Stop [] ["NOT"] m :=
      stop_keyword second ht hw rfl (List.forall_mem_singleton.2 (other _ (by decide)))
    rw [testTail, flag_reads hf rfl (List.mem_singleton_self _) s m first next]
    exact h _ m r second hr
  refine (operand_reads ho wf).followed ?_ fun m r spells _ => (front m r spells).plain
  exact .afterWord_else (fun s r spells _ => (front s r spells).misses (by decide) rfl) tail

theorem rangeTest_reads {negated : Bool} {lower upper : Operand} {ls : List Token} (hl : WrittenOperand lower ls)
    (wfl : lower.WellFormed) (h : Keyword "AND" u) (hu : WrittenOperand upper us) (wfu : upper.WellFormed) :
    Reads (rangeTest subject negated) (ls ++ u :: us) (.between subject lower upper negated) (Stop [] []) := by
  have last := ((operand_reads hu wfu).require .upperBound).mapped fun upper =>
    Condition.between subject lower upper negated
  have word := (keyword_reads h rfl fun _ => True).require .andInBetween
  exact ((operand_reads hl wfl).require .lowerBound).followed (word.andRead last fun _ _ _ _ => trivial)
    fun m r spells _ => stop_keyword spells h rfl rfl (List.forall_mem_nil _)

theorem listTest_reads {negated : Bool} {values : List Operand} {vs : List Token}
    (h : WrittenList WrittenOperand values vs) (wf : ∀ v ∈ values, v.WellFormed) (stop : List Char → Prop) :
    Reads (listTest subject negated) (.opening :: (vs ++ [.closing])) (.among subject values negated) stop := by
  have elements := list_reads (fun v ts hv wf => operand_reads hv wf) (List.forall_mem_nil _) h wf
  have closing := sign_reads (t := .closing) (c := ')') rfl stop
  have list := after_sign (t := .opening) (c := '(') rfl
    (before_sign elements closing rfl rfl (by decide) (List.forall_mem_nil _))
  exact (list.require .valueList).mapped _

theorem escapeLiteral_reads (c : Char) : Reads escapeLiteral [quotedToken (String.ofList [c])] c (Stop [] []) := by
  intro s r spells hr
  rw [escapeLiteral, spaced_reads (stringLiteral_takes _) s r spells hr]
  simp only [Outcome.andThen, String.toList_ofList]

theorem patternTest_reads {negated : Bool} {pattern : Operand} {escape : Option Char} {ps es : List Token}
    (hp : WrittenOperand pattern ps) (wf : pattern.WellFormed) (he : WrittenEscape escape es) :
    Reads (patternTest subject negated) (ps ++ es) (.like subject pattern escape negated) (Stop [] ["ESCAPE"]) := by
  have first := (operand_reads hp wf).require .pattern
  cases he with
  | none =>
    have unescaped : Reads (optional (andRead (keyword "ESCAPE") (require .escapeLiteral escapeLiteral))) [] none
        (Stop [] ["ESCAPE"]) :=
      .optional_none fun r hr => (hr.misses (List.mem_singleton_self _) rfl).andRead _
    rw [List.append_nil]
    exact first.followed_nil (unescaped.mapped _) fun r hr => hr.plain
  | @some c t word =>
    have literal := ((escapeLiteral_reads c).require .escapeLiteral).mono fun r (hr : Stop [] ["ESCAPE"] r) =>
      hr.plain
    exact first.followed ((after_keyword word rfl literal).optional_some.mapped _) fun m r spells _ =>
      stop_keyword spells word rfl rfl (List.forall_mem_nil _)

theorem nullTest_reads {negated : Bool} (hf : WrittenFlag "NOT" negated flag) (h : Keyword "NULL" u)
    (stop : List Char → Prop) : Reads (nullTest subject) (flag ++ [u]) (.isNull subject negated) stop := by
  have word := (keyword_reads h rfl stop).require .nullAfterIs
  exact (flag_reads hf rfl (List.mem_singleton_self _)).followed (word.mapped _) fun m r spells _ =>
    stop_keyword spells h rfl rfl (by decide)

/-- what follows the operand of a comparison: the sign of the relation, and then the other operand -/
theorem testTail_reads_comparison (subject : Operand) {rel : Relation} {right : Operand} (h : WrittenRelation rel t)
    (hr : WrittenOperand right ts) (wf : right.WellFormed) :
    Reads (testTail subject) (t :: ts) (.compare rel subject right) (Stop [] []) := by
  have last := ((operand_reads hr wf).require .rightOperand).mapped fun right => Condition.compare rel subject right
  have whole : Reads (comparison subject) ([t] ++ ts) (.compare rel subject right) (Stop [] []) :=
    ((relation_reads h).blaming .operator).followed last fun m r spells _ =>
      hr.opens wf spells.append_nil
  intro s r spells stop
  have sign : Stop [] ["NOT", "BETWEEN", "IN", "LIKE"] s :=
    stop_sign spells (by cases h <;> rfl) (by cases h <;> rfl) List.not_mem_nil (by decide)
  rw [testTail, present_misses (sign.misses (by decide) (by rfl))]
  simp only [Outcome.andThen]
  rw [afterWord_misses (sign.misses (by decide) (by rfl)), afterWord_misses (sign.misses (by decide) (by rfl)),
    afterWord_misses (sign.misses (by decide) (by rfl))]
  exact whole s r spells stop

/-- **A test is read**, and only ESCAPE would go on it. -/
theorem test_reads (h : WrittenTest c ts) (wf : c.WellFormed) : Reads test ts c (Stop [] ["ESCAPE"]) := by
  have plain : ∀ r, Stop [] ["ESCAPE"] r → Stop [] [] r := fun r hr => hr.plain
  cases h with
  | @compare rel left right ls rs t hl ht hr =>
    have sign : ∀ m r, Spells (t :: rs) m r → Stop [] ["IS"] m := by
      intro m r spells
      exact stop_sign spells (by cases ht <;> rfl) (by cases ht <;> rfl) List.not_mem_nil (by decide)
    have tail := (testTail_reads_comparison left ht hr wf.2).mono plain
    refine (operand_reads hl wf.1).followed ?_ fun m r spells _ => (sign m r spells).plain
    exact .afterWord_else (fun s r spells _ => (sign s r spells).misses (by decide) rfl) tail
  | between ho hf ht hl hu hus =>
    refine test_reads_word ho wf.1 hf ht rfl (by decide) fun last => ?_
    exact .afterWord_then ht rfl ((rangeTest_reads hl wf.2.1 hu hus wf.2.2).mono plain)
  | among ho hf ht hv =>
    refine test_reads_word ho wf.1 hf ht rfl (by decide) fun last => ?_
    refine .afterWord_else (fun s r spells _ => ht.misses rfl spells rfl (by decide)) ?_
    exact .afterWord_then ht rfl (listTest_reads hv wf.2.2 _)
  | like ho hf ht hp he =>
    refine test_reads_word ho wf.1 hf ht rfl (by decide) fun last => ?_
    refine .afterWord_else (fun s r spells _ => ht.misses rfl spells rfl (by decide)) ?_
    refine .afterWord_else (fun s r spells _ => ht.misses rfl spells rfl (by decide)) ?_
    exact .afterWord_then ht rfl (patternTest_reads hp wf.2 he)
  | @isNull operand negated os flag t u ho ht hf hu =>
    exact (operand_reads ho wf).followed (.afterWord_then ht rfl (nullTest_reads hf hu _))
      fun m r spells _ => stop_keyword spells ht rfl rfl (List.forall_mem_nil _)

theorem WrittenTest.opens (h : WrittenTest c ts) (wf : c.WellFormed) (spells : Spells ts s r) : Opens s := by
  cases h with
  | compare ho _ _ => exact ho.opens wf.1 spells
  | between ho _ _ _ _ _ => exact ho.opens wf.1 spells
  | among ho _ _ _ => exact ho.opens wf.1 spells
  | like ho _ _ _ _ => exact ho.opens wf.1 spells
  | isNull ho _ _ _ => exact ho.opens wf spells

/-! ## Levels -/

/-- what reads the conditions of a level, with so many NOTs and parentheses to go -/
def Level.reader : Level → (room : Nat) → Reader (Condition Operand)
  | .negation, room => Query.negation room
  | .conjunction, room => Query.conjunction (Query.negation room)
  | .disjunction, room => Query.disjunction (Query.negation room)

/-- the words that would go on a condition of a level -/
def Level.words : Level → List String
  | .negation => ["ESCAPE"]
  | .conjunction => ["AND", "ESCAPE"]
  | .disjunction => ["OR", "AND", "ESCAPE"]

/-- what stands behind the first condition of a chain -/
def furtherParts (word : String) (complaint : Complaint) (part : Reader (Condition Operand)) :
    Reader (List (Condition Operand)) :=
  many (andRead (keyword word) (require complaint part))

theorem chain_eq (word : String) (complaint : Complaint) (connective : List (Condition Operand) → Condition Operand)
    (part : Reader (Condition Operand)) : chain word complaint connective part =
      followed part fun first => mapped (joined connective first) (furtherParts word complaint part) := rfl

theorem furtherParts_nil {words : List String} (hw : IsWord word) (complaint : Complaint)
    (part : Reader (Condition Operand)) :
    Reads (furtherParts word complaint part) [] [] (Stop [] (word :: words)) :=
  .many_nil fun _ hr => (hr.misses List.mem_cons_self hw).andRead _

/-- a chain of one part is the part -/
theorem chain_reads_one {word : String} {words : List String} (hw : IsWord word) (complaint : Complaint)
    (connective : List (Condition Operand) → Condition Operand) {part : Reader (Condition Operand)}
    (h : Reads part ts c (Stop [] words)) :
    Reads (chain word complaint connective part) ts c (Stop [] (word :: words)) := by
  rw [chain_eq]
  exact h.followed_nil ((furtherParts_nil hw complaint part).mapped (joined connective c)) fun r hr =>
    hr.mono (List.forall_mem_nil _) fun _ => List.mem_cons_of_mem _

/-- a part behind the first one, with the word before it -/
theorem part_reads (h : Keyword word t) (hw : IsWord word) (complaint : Complaint) {part : Reader (Condition Operand)}
    (hpart : Reads part ts c stop) : Reads (andRead (keyword word) (require complaint part)) (t :: ts) c stop :=
  after_keyword h hw (hpart.require complaint)

/-- a chain of more parts is their connection -/
theorem chain_reads_more {words : List String} (hwords : ∀ w ∈ words, lower word.toList ≠ lower w.toList)
    (hw : IsWord word) {complaint : Complaint} (connective : List (Condition Operand) → Condition Operand)
    {part : Reader (Condition Operand)} {cs : List (Condition Operand)} (filled : cs ≠ []) (h : Keyword word t)
    (hpart : Reads part ts c (Stop [] words)) (hrest : Reads (furtherParts word complaint part) (t :: us) cs stop) :
    Reads (chain word complaint connective part) (ts ++ t :: us) (connective (c :: cs)) stop := by
  have joins : joined connective c cs = connective (c :: cs) := by
    obtain ⟨d, cs, rfl⟩ := List.exists_cons_of_ne_nil filled
    rfl
  rw [← joins]
  exact hpart.followed (hrest.mapped (joined connective c)) fun _ _ spells _ => stop_keyword spells h hw rfl hwords

theorem Chain.filled {level : Level} {n : Nat} {cs : List (Condition Operand)} (h : Chain word level n cs ts) :
    cs ≠ [] := by
  cases h <;> exact List.cons_ne_nil _ _

theorem negation_reads_not {room : Nat} (h : Keyword "NOT" t) (inner : Reads (negation room) ts c stop) :
    Reads (negation (room + 1)) (t :: ts) (.not c) stop :=
  (after_keyword h rfl (inner.mapped _).firmly).either_left _

theorem negation_reads_parentheses {room : Nat}
    (inner : Reads (disjunction (negation room)) ts c (Stop [] Level.disjunction.words)) (stop : List Char → Prop) :
    Reads (negation (room + 1)) (.opening :: (ts ++ [.closing])) c stop := by
  have closing := (sign_reads (t := .closing) (c := ')') rfl stop).require .closingParenthesis
  have body := after_sign (t := .opening) (c := '(') rfl
    (before_sign inner closing rfl rfl List.not_mem_nil (by decide))
  refine .either_right ?_ (body.either_left _)
  intro s r spells _
  have no_not : lead s ≠ lower "NOT".toList := lead_ne spells.head rfl (by rfl)
  exact (keyword_misses spells.clear (by rfl) no_not).andRead _

theorem negation_reads_test {room : Nat} (h : WrittenTest c ts) (wf : c.WellFormed) :
    Reads (negation (room + 1)) ts c (Stop [] ["ESCAPE"]) := by
  have opens : ∀ s r, Spells ts s r → Opens s := fun s r spells => h.opens wf spells
  refine .either_right ?_ (.either_right ?_ (test_reads h wf))
  · intro s r spells _
    have front := opens s r spells
    exact (keyword_misses front.gap (by rfl) front.word).andRead _
  · intro s r spells _
    have front := opens s r spells
    exact ((sign_misses (front.sign _ (by decide))).spaced front.gap).andRead _

mutual

/-- **A condition is read** by the reader of its level if there is room enough. -/
theorem phrase_reads {level : Level} {n : Nat} {c : Condition Operand} {ts : List Token} (h : Phrase level n c ts)
    (wf : c.WellFormed) {room : Nat} (enough : n < room) : Reads (level.reader room) ts c (Stop [] level.words) := by
  match h, wf with
  | .or (.one _), wf => exact absurd wf.1 (by simp)
  | .or (.cons first word rest), wf =>
    have first' := phrase_reads first wf.2.1 enough
    have rest' := chain_reads rest wf.2.2 enough word .afterOr rfl (by decide)
    exact chain_reads_more (by decide) (by rfl) .or rest.filled word first' rest'
  | .and (.one _), wf => exact absurd wf.1 (by simp)
  | .and (.cons first word rest), wf =>
    have first' := phrase_reads first wf.2.1 enough
    have rest' := chain_reads rest wf.2.2 enough word .afterAnd rfl (by decide)
    exact chain_reads_more (by decide) (by rfl) .and rest.filled word first' rest'
  | .not word inner, wf =>
    obtain ⟨room, rfl⟩ := Nat.exists_eq_succ_of_ne_zero (Nat.ne_zero_of_lt enough)
    exact negation_reads_not word (phrase_reads inner wf (Nat.lt_of_succ_lt_succ enough))
  | .parentheses inner, wf =>
    obtain ⟨room, rfl⟩ := Nat.exists_eq_succ_of_ne_zero (Nat.ne_zero_of_lt enough)
    exact negation_reads_parentheses (phrase_reads inner wf (Nat.lt_of_succ_lt_succ enough)) _
  | .test written, wf =>
    obtain ⟨room, rfl⟩ := Nat.exists_eq_succ_of_ne_zero (Nat.ne_zero_of_lt enough)
    exact negation_reads_test written wf
  | .conjunction inner, wf => exact chain_reads_one (by rfl) .afterOr .or (phrase_reads inner wf enough)
  | .negation inner, wf => exact chain_reads_one (by rfl) .afterAnd .and (phrase_reads inner wf enough)

/-- what stands behind the first condition of a chain is read -/
theorem chain_reads {word : String} {level : Level} {n : Nat} {cs : List (Condition Operand)} {t : Token}
    {ts : List Token} (h : Chain word level n cs ts) (wf : Condition.AllWellFormed cs) {room : Nat} (enough : n < room)
    (keyword : Keyword word t) (complaint : Complaint) (hw : IsWord word)
    (hwords : ∀ w ∈ level.words, lower word.toList ≠ lower w.toList) :
    Reads (furtherParts word complaint (level.reader room)) (t :: ts) cs (Stop [] (word :: level.words)) := by
  match h, wf with
  | .one inner, wf =>
    have part := part_reads keyword hw complaint (phrase_reads inner wf.1 enough)
    have parts := part.many_cons (furtherParts_nil hw complaint _) fun m r spells hr => by
      cases spells
      exact hr.mono (List.forall_mem_nil _) fun w => List.mem_cons_of_mem _
    rwa [List.append_nil] at parts
  | .cons inner keyword' rest, wf =>
    have part := part_reads keyword hw complaint (phrase_reads inner wf.1 enough)
    have parts := chain_reads rest wf.2 enough keyword' complaint hw hwords
    exact part.many_cons parts fun m r spells _ => stop_keyword spells keyword' hw rfl hwords

end

end EntitySearch.Query
