/-
How deep the conditions of a query can be.

`Yields P p`: whatever the reader takes from the front of a text, its value has the property `P`. For each way to put
readers together there is a lemma that says what its values have if the values of its parts have theirs. With one level
of nesting more to go, a condition is two levels deeper at most, by parentheses around an OR of ANDs
(`negation_shallow`). So a query that was read has a bounded depth, however long its text is (`parse_depth`).
-/
import EntitySearch.Query.Reader.Statement
import EntitySearch.Proofs.Query.Reading

namespace EntitySearch.Query

variable {α β : Type}

/-- an attempt that succeeds has a value with the property -/
def Outcome.All (P : α → Prop) : Outcome α → Prop
  | .ok a _ => P a
  | .miss _ => True
  | .fail _ => True

/-- whatever is read has the property -/
def Yields (P : α → Prop) (p : Reader α) : Prop := ∀ s, (p s).All P

namespace Outcome.All

variable {P : α → Prop} {R : β → Prop} {o other : Outcome α}

theorem any (o : Outcome α) : o.All fun _ => True := by
  cases o <;> exact trivial

theorem mono {P' : α → Prop} (h : o.All P) (hP : ∀ a, P a → P' a) : o.All P' := by
  cases o with
  | ok a rest => exact hP a h
  | _ => exact trivial

theorem map {g : α → β} (h : o.All P) (hg : ∀ a, P a → R (g a)) : (o.map g).All R := by
  cases o with
  | ok a rest => exact hg a h
  | _ => exact trivial

theorem andThen {next : α → Reader β} (h : o.All P) (hn : ∀ a rest, P a → (next a rest).All R) :
    (o.andThen next).All R := by
  cases o with
  | ok a rest => exact hn a rest h
  | _ => exact trivial

theorem orElse (h : o.All P) (h' : other.All P) : (o.orElse other).All P := by
  cases o with
  | miss => exact h'
  | _ => exact h

theorem firm (h : o.All P) : o.firm.All P := by
  cases o <;> exact h

theorem blame (h : o.All P) (complaint : Complaint) : (o.blame complaint).All P := by
  cases o <;> exact h

end Outcome.All

/-! ## Readers put together -/

namespace Yields

variable {P : α → Prop} {R : β → Prop} {p q : Reader α} {r : Reader β} {f : α → Reader β} {g : α → β}

theorem mono {P' : α → Prop} (hp : Yields P p) (h : ∀ a, P a → P' a) : Yields P' p := fun s => (hp s).mono h

theorem give {a : α} (h : P a) : Yields P (give a) := fun _ => h

theorem followed (hp : Yields P p) (hf : ∀ a, P a → Yields R (f a)) : Yields R (followed p f) := fun s =>
  (hp s).andThen fun a rest ha => hf a ha rest

/-- whatever is read first -/
theorem behind (hf : ∀ a, Yields R (f a)) : Yields R (Query.followed p f) := fun s =>
  (Outcome.All.any (p s)).andThen fun a rest _ => hf a rest

theorem andRead (hr : Yields R r) : Yields R (andRead p r) := behind fun _ => hr

theorem thenDrop (hp : Yields P p) : Yields P (thenDrop p r) := hp.followed fun _ ha => behind fun _ => give ha

theorem mapped (hp : Yields P p) (hg : ∀ a, P a → R (g a)) : Yields R (mapped g p) := fun s => (hp s).map hg

/-- whatever it is made of -/
theorem made (hg : ∀ a, R (g a)) : Yields R (Query.mapped g p) := fun s =>
  (Outcome.All.any (p s)).map fun a _ => hg a

theorem either (hp : Yields P p) (hq : Yields P q) : Yields P (either p q) := fun s => (hp s).orElse (hq s)

theorem firmly (hp : Yields P p) : Yields P (firmly p) := fun s => (hp s).firm

theorem require (hp : Yields P p) (complaint : Complaint) : Yields P (require complaint p) := fun s =>
  (hp s).firm.blame complaint

theorem optional (hp : Yields P p) : Yields (fun o => ∀ a ∈ o, P a) (optional p) := fun s =>
  ((hp s).map (g := some) (R := fun o => ∀ a ∈ o, P a) fun _ ha => by
    rintro _ ⟨⟩
    exact ha).orElse nofun

theorem many (hp : Yields P p) : Yields (fun as => ∀ a ∈ as, P a) (many p) := by
  intro s
  induction s using Query.many.induct p with
  | case1 s fault h =>
    rw [many_misses ⟨fault, h⟩]
    exact List.forall_mem_nil P
  | case2 s fault h =>
    rw [Query.many, h]
    exact trivial
  | case3 s a rest h shorter ih =>
    have first := hp s
    rw [h] at first
    rw [many_ok h shorter]
    exact ih.map fun as has => List.forall_mem_cons.2 ⟨first, has⟩
  | case4 s a rest h longer =>
    rw [Query.many, h]
    simp only [longer, dif_neg, not_false_eq_true]
    exact trivial

end Yields

/-! ## Tests -/

/-- a condition of fewer levels -/
def Shallow (d : Nat) (c : Condition Operand) : Prop := c.depth < d

section

variable {subject : Operand} {negated : Bool}

theorem nullTest_shallow : Yields (Shallow 2) (nullTest subject) :=
  .behind fun _ => .made fun _ => Nat.lt_succ_self 1

theorem rangeTest_shallow : Yields (Shallow 2) (rangeTest subject negated) :=
  .behind fun _ => .andRead (.made fun _ => Nat.lt_succ_self 1)

theorem listTest_shallow : Yields (Shallow 2) (listTest subject negated) := .made fun _ => Nat.lt_succ_self 1

theorem patternTest_shallow : Yields (Shallow 2) (patternTest subject negated) :=
  .behind fun _ => .made fun _ => Nat.lt_succ_self 1

theorem comparison_shallow : Yields (Shallow 2) (comparison subject) :=
  .behind fun _ => .made fun _ => Nat.lt_succ_self 1

theorem afterWord_all {P : α → Prop} {word : String} {continuation other : Reader α} {s : List Char}
    (hc : Yields P continuation) (ho : (other s).All P) : (afterWord word continuation other s).All P := by
  rw [afterWord]
  split
  · exact hc _
  · exact ho

theorem testTail_shallow : Yields (Shallow 2) (testTail subject) := by
  refine fun s => (Outcome.All.any _).andThen fun negated rest _ => ?_
  refine afterWord_all rangeTest_shallow (afterWord_all listTest_shallow (afterWord_all patternTest_shallow ?_))
  cases negated with
  | true => exact trivial
  | false => exact comparison_shallow s

/-- a test is a level of its own -/
theorem test_shallow : Yields (Shallow 2) test :=
  .behind fun _ s => afterWord_all nullTest_shallow (testTail_shallow s)

end

/-! ## Conditions -/

section

variable {d : Nat} {part : Reader (Condition Operand)}

theorem depths_lt {cs : List (Condition Operand)} (hd : 0 < d) (h : ∀ c ∈ cs, Shallow d c) :
    Condition.depths cs < d := by
  induction cs with
  | nil => exact hd
  | cons c rest ih =>
    rw [List.forall_mem_cons] at h
    exact Nat.max_lt.2 ⟨h.1, ih h.2⟩

/-- a chain is one level deeper than its deepest part -/
theorem chain_shallow {connective : List (Condition Operand) → Condition Operand}
    (level : ∀ cs, (connective cs).depth = 1 + Condition.depths cs) (hp : Yields (Shallow d) part) (word : String)
    (complaint : Complaint) : Yields (Shallow (d + 1)) (chain word complaint connective part) := by
  refine hp.followed fun first hfirst => (Yields.andRead (hp.require complaint)).many.mapped fun rest hrest => ?_
  cases rest with
  | nil => exact Nat.lt_succ_of_lt hfirst
  | cons c cs =>
    show (connective (first :: c :: cs)).depth < d + 1
    rw [level, Nat.add_comm]
    exact Nat.succ_lt_succ (depths_lt (Nat.zero_lt_of_lt hfirst) (List.forall_mem_cons.2 ⟨hfirst, hrest⟩))

theorem disjunction_shallow (hp : Yields (Shallow d) part) : Yields (Shallow (d + 2)) (disjunction part) :=
  chain_shallow (fun _ => rfl) (chain_shallow (fun _ => rfl) hp "AND" .afterAnd) "OR" .afterOr

/-- **Each level of nesting is worth two of depth**: it may hold an OR of ANDs. With none to go nothing is read. -/
theorem negation_shallow (room : Nat) : Yields (Shallow (2 * room)) (negation room) := by
  induction room with
  | zero => exact fun _ => trivial
  | succ room ih =>
    have negated : Yields (Shallow (2 * room + 2)) (mapped .not (negation room)) :=
      ih.mapped fun c (hc : c.depth < 2 * room) => show 1 + c.depth < 2 * room + 2 by omega
    have grouped : Yields (Shallow (2 * room + 2)) (parenthesized (disjunction (negation room))) :=
      .andRead (disjunction_shallow ih).thenDrop
    have plain : Yields (Shallow (2 * room + 2)) test :=
      test_shallow.mono fun c (hc : c.depth < 2) => Nat.lt_of_lt_of_le hc (Nat.le_add_left 2 (2 * room))
    exact (Yields.andRead negated.firmly).either (grouped.either plain)

end

theorem condition_shallow : Yields (Shallow (2 * (maxNesting + 1) + 2)) condition :=
  disjunction_shallow (negation_shallow (maxNesting + 1))

/-! ## Queries -/

/-- the conditions of a query are no deeper than a whole condition can be -/
theorem statement_shallow : Yields (fun q => ∀ c, c ∈ q.filter ∨ c ∈ q.having → Shallow 132 c) statement := by
  have filters : Yields (fun o => ∀ c ∈ o, Shallow 132 c) (optional whereClause) :=
    (Yields.andRead (condition_shallow.require .inWhere)).optional
  have havings : Yields (fun o => ∀ c ∈ o, Shallow 132 c) (optional havingClause) :=
    (Yields.andRead (condition_shallow.require .inHaving)).optional
  refine .andRead (.behind fun select => .behind fun from' => filters.followed fun filter hfilter => ?_)
  refine .behind fun groupBy => havings.followed fun having hhaving => .behind fun orderBy => .made fun _ c hc => ?_
  exact hc.elim (hfilter c) (hhaving c)

/-- **A query that was read has a bounded depth**, however long its text is. -/
theorem parse_depth {text : String} {q : EntitySearch.Statement} (h : parse text = .ok q) : q.depth ≤ 131 := by
  have shallow := statement_shallow text.toList
  unfold parse at h
  split at h
  · rename_i heq
    rw [heq] at shallow
    cases h
    have bound {o : Option (Condition Operand)} (ho : ∀ c ∈ o, Shallow 132 c) :
        (o.map Condition.depth).getD 0 ≤ 131 := by
      cases o with
      | none => exact Nat.zero_le 131
      | some c => exact Nat.le_of_lt_succ (ho c rfl)
    exact Nat.max_le.2 ⟨bound fun c hc => shallow c (.inl hc), bound fun c hc => shallow c (.inr hc)⟩
  · cases h
  · cases h
  · cases h

end EntitySearch.Query
