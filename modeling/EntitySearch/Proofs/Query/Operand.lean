/-
Aggregates and operands are read as they are written.

The name of an aggregate is no reserved word, so a path may begin with it: `aggregateExpr` reads the word and then
misses for want of a parenthesis (`aggregateExpr_misses_path`). All other alternatives of an operand miss by the
character or by the word at the front (`operand_reads`). An operand `Opens` a test: nothing at its front is a
parenthesis, NOT, or a sign that would go on a relation.
-/
import EntitySearch.Proofs.Query.Path

namespace EntitySearch.Query

open Text

variable {t : Token} {ts us : List Token} {s m r between : List Char} {word word' : String}

/-! ## Words at the front -/

theorem wordFront_front (h : lead s = lower word.toList) : wordFront word s = .ok () (s.dropWhile isNameChar) := by
  have front := dropWord_front h (s.dropWhile isNameChar)
  rw [List.takeWhile_append_dropWhile] at front
  simp only [wordFront, front, (clear_dropWhile isNameChar s).any, Bool.false_eq_true, if_false]

/-- a word that is at the front is read, with the gaps behind it -/
theorem keyword_front (gap : Clear isGap s) (h : lead s = lower word.toList) :
    keyword word s = .ok () ((s.dropWhile isNameChar).dropWhile isGap) := by
  rw [keyword_eq, spaced_clear gap, wordFront_front h]
  rfl

/-- another word is missed -/
theorem Keyword.misses (h : Keyword word t) (hw : IsWord word) (spells : Spells (t :: ts) s r) (hw' : IsWord word')
    (ne : lower word.toList ≠ lower word'.toList) : Misses (keyword word') s := by
  have front := h.lead hw spells
  exact keyword_misses spells.clear hw' (front ▸ ne)

theorem boolLiteral_misses (gap : Clear isGap s) (ht : lead s ≠ lower "TRUE".toList)
    (hf : lead s ≠ lower "FALSE".toList) : Misses boolLiteral s :=
  ((keyword_misses gap (by rfl) ht).mapped _).either ((keyword_misses gap (by rfl) hf).mapped _)

/-- a word that says yes or no is read -/
theorem boolLiteral_reads {value : Bool} (h : Keyword (if value then "TRUE" else "FALSE") t) (stop : List Char → Prop) :
    Reads boolLiteral [t] value stop := by
  cases value with
  | true => exact ((keyword_reads h rfl stop).mapped _).either_left _
  | false =>
    have word : Keyword "FALSE" t := h
    refine .skip (fun s r spells _ => word.misses rfl spells (by rfl) (by decide)) ?_
    exact (keyword_reads word rfl stop).mapped _

/-! ## Aggregates -/

/-- the name of an aggregate is read -/
theorem aggregateName_reads {f : AggregateName} (h : Keyword (aggregateWord f) t) (stop : List Char → Prop) :
    Reads aggregateName [t] f stop := by
  have other : ∀ w, IsWord w → IsWord (aggregateWord f) → lower (aggregateWord f).toList ≠ lower w.toList →
      ∀ s r, Spells [t] s r → stop r → Misses (keyword w) s := by
    intro w hw hf ne s r spells _
    exact h.misses hf spells hw ne
  have word : IsWord (aggregateWord f) := by cases f <;> rfl
  have read := (keyword_reads h word stop).mapped fun _ => f
  cases f with
  | sum => exact read.either_left _
  | avg =>
    refine .skip (other "SUM" rfl word (by decide)) ?_
    exact read.either_left _
  | min =>
    refine .skip (other "SUM" rfl word (by decide)) ?_
    refine .skip (other "AVG" rfl word (by decide)) ?_
    exact read.either_left _
  | max =>
    refine .skip (other "SUM" rfl word (by decide)) ?_
    refine .skip (other "AVG" rfl word (by decide)) ?_
    refine .skip (other "MIN" rfl word (by decide)) ?_
    exact read.either_left _
  | count =>
    refine .skip (other "SUM" rfl word (by decide)) ?_
    refine .skip (other "AVG" rfl word (by decide)) ?_
    refine .skip (other "MIN" rfl word (by decide)) ?_
    exact .skip (other "MAX" rfl word (by decide)) read

/-- whatever name an aggregate's reader finds, it stops behind the word -/
theorem aggregateName_front (gap : Clear isGap s) :
    Misses aggregateName s ∨ ∃ f, aggregateName s = .ok f ((s.dropWhile isNameChar).dropWhile isGap) := by
  have each : ∀ w, IsWord w → ∀ a : AggregateName, Misses (mapped (fun _ => a) (keyword w)) s ∨
      mapped (fun _ => a) (keyword w) s = .ok a ((s.dropWhile isNameChar).dropWhile isGap) := by
    intro w hw a
    by_cases h : lead s = lower w.toList
    · exact .inr (mapped_ok (keyword_front gap h) _)
    · exact .inl ((keyword_misses gap hw h).mapped _)
  have step : ∀ {p q : Reader AggregateName} {a rest}, (Misses p s ∨ p s = .ok a rest) →
      (Misses q s ∨ ∃ f, q s = .ok f rest) → Misses (either p q) s ∨ ∃ f, either p q s = .ok f rest := by
    intro p q a rest hp hq
    rcases hp with hp | hp
    · rcases hq with hq | ⟨f, hq⟩
      · exact .inl (hp.either hq)
      · exact .inr ⟨f, (either_misses hp).trans hq⟩
    · exact .inr ⟨a, either_ok hp q⟩
  exact step (each "SUM" rfl _) (step (each "AVG" rfl _) (step (each "MIN" rfl _) (step (each "MAX" rfl _)
    ((each "COUNT" rfl _).imp_right fun h => ⟨_, h⟩))))

/-- without a parenthesis behind the word there is no aggregate -/
theorem aggregateExpr_misses (gap : Clear isGap s) (h : ((s.dropWhile isNameChar).dropWhile isGap).head? ≠ some '(') :
    Misses aggregateExpr s := by
  rcases aggregateName_front gap with hn | ⟨f, hn⟩
  · exact hn.followed _
  · have behind := clear_dropWhile isGap (s.dropWhile isNameChar)
    exact Misses.followed_ok hn (((sign_misses h).spaced behind).andRead _)

/-- behind the first name of a path is a full stop or what follows the token -/
theorem path_behind {segments : List String} (h : IsPath segments) (plain : Plain (dotted segments) t)
    (behind : Behind t between m) {c : Char} (point : c ≠ '.') (hm : m.head? ≠ some c) :
    (((t.chars ++ between).dropWhile isNameChar).dropWhile isGap).head? ≠ some c := by
  cases segments with
  | nil => exact h.elim
  | cons first rest =>
    obtain ⟨hfirst, -, hrest⟩ := h
    obtain ⟨chars, -, ends⟩ := dotted_token (List.forall_mem_cons.2 ⟨hfirst, hrest⟩) plain
    rw [chars, List.append_assoc,
      dropWhile_front (isNameChar_of_isIdentifier hfirst) (clear_dottedTail rfl (behind.apart ends))]
    cases rest with
    | nil => exact behind.dropWhile ▸ hm
    | cons x rest => exact fun heq => point (Option.some.inj heq).symm

/-- a path is no aggregate, even if it begins with the name of one -/
theorem aggregateExpr_misses_path {p : PathExpr} (h : WrittenPath p ts) (wf : p.WellFormed) (spells : Spells ts s r)
    (stop : Stop [] [] r) : Misses aggregateExpr s := by
  cases h with
  | plain plain =>
    have gap := spells.clear
    obtain ⟨between, rfl, behind⟩ := spells.single
    exact aggregateExpr_misses gap (path_behind wf.1 plain behind (by decide) (stop.head_ne (.inl rfl)))
  | indexed plain _ =>
    have gap := spells.clear
    obtain ⟨between, m, rfl, behind, rest⟩ := Spells.cons_iff.1 spells
    have bracket : m.head? ≠ some '(' := by
      rw [rest.head]
      simp [Token.openingIndex]
    exact aggregateExpr_misses gap (path_behind wf.1 plain behind (by decide) bracket)

/-- **An aggregate is read**, with DISTINCT if it is there. -/
theorem aggregate_reads {a : AggregateExpr} (h : WrittenAggregate a ts) (wf : a.path.WellFormed)
    (stop : List Char → Prop) : Reads aggregateExpr ts a stop := by
  cases h with
  | @mk function distinct path t flag ts word distinctly written =>
    have closing := (sign_reads (t := .closing) (c := ')') rfl stop).require .closingParenthesis
    have argument := ((path_reads written wf).require .aggregatePath).mapped (AggregateExpr.mk function distinct)
    have body := before_sign argument closing rfl rfl List.not_mem_nil (List.forall_mem_nil _)
    have next : ∀ m r, Spells (ts ++ [.closing]) m r → stop r → Stop [] ["DISTINCT"] m := fun m r spells _ =>
      written.stop wf spells rfl (by decide)
    have inside := (flag_reads distinctly rfl (List.mem_singleton_self _)).followed (f := fun distinct =>
      thenDrop (mapped (AggregateExpr.mk function distinct) (require .aggregatePath pathExpr)) _) body next
    exact (aggregateName_reads word fun _ => True).followed (after_sign (c := '(') rfl inside) fun _ _ _ _ => trivial

/-! ## Operands -/

theorem Keyword.noLiteral (h : Keyword word t) (hw : IsWord word) (spells : Spells (t :: ts) s r) : NoLiteral s := by
  have alpha := isAlpha_of_lower h hw t.first List.mem_cons_self
  exact noLiteral_of_startsName (startsName_of_isAlpha alpha) spells.head

theorem WrittenPath.noLiteral {p : PathExpr} (h : WrittenPath p ts) (wf : p.WellFormed) (spells : Spells ts s r) :
    NoLiteral s := by
  cases h with
  | plain plain => exact noLiteral_of_startsName (path_first wf.1 plain) spells.head
  | indexed plain _ => exact noLiteral_of_startsName (path_first wf.1 plain) spells.head

/-- a word does not begin with another character than a letter -/
theorem lead_ne {c : Char} (hs : s.head? = some c) (hc : c.isAlpha = false) (hw : IsWord word) :
    lead s ≠ lower word.toList := by
  intro h
  obtain ⟨rest, rfl⟩ := List.head?_eq_some_iff.1 hs
  by_cases hn : isNameChar c = true
  · have first : c ∈ (c :: rest).takeWhile isNameChar := by simp [hn]
    rw [isAlpha_of_lower h hw c first] at hc
    cases hc
  · rw [lead_clear (clear_cons.2 (Bool.eq_false_of_not_eq_true hn))] at h
    have empty : word.toList = [] := List.map_eq_nil_iff.1 h.symm
    simp [IsWord, empty] at hw

theorem boolLiteral_misses_sign (hs : s.head? = some t.first) (hc : t.first.isAlpha = false) :
    Misses boolLiteral s :=
  boolLiteral_misses (fun d hd => by cases hs.symm.trans hd; exact t.solid) (lead_ne hs hc rfl) (lead_ne hs hc rfl)

/-- aggregates and paths come last -/
theorem operand_reads_name {o : Operand} {stop : List Char → Prop}
    (late : ∀ s r, Spells (t :: ts) s r → NoLiteral s ∧ Misses boolLiteral s)
    (h : Reads (either (mapped .aggregate aggregateExpr) (mapped .path pathExpr)) (t :: ts) o stop) :
    Reads operand (t :: ts) o stop := by
  apply Reads.spaced
  refine .skip (fun s r spells _ => (late s r spells).1.text) ?_
  refine .skip (fun s r spells _ => (late s r spells).1.number) ?_
  refine .skip (fun s r spells _ => (late s r spells).2) ?_
  refine .skip (fun s r spells _ => (late s r spells).1.named) ?_
  exact .skip (fun s r spells _ => (late s r spells).1.positional) h

/-- **An operand is read**, whichever kind it is of. -/
theorem operand_reads {o : Operand} (h : WrittenOperand o ts) (wf : o.WellFormed) :
    Reads operand ts o (Stop [] []) := by
  cases h with
  | string x =>
    apply spaced_reads
    exact ((stringLiteral_takes x).mapped _).either_left _
  | number plain =>
    apply spaced_reads
    refine .skip (fun s hs => misses_string (wf.first_ne plain (by decide)) hs) ?_
    exact ((numberLiteral_takes wf plain).mapped _).either_left _
  | @bool value t word =>
    have hw : IsWord (if value then "TRUE" else "FALSE") := by cases value <;> rfl
    apply Reads.spaced
    refine .skip (fun s r spells _ => (word.noLiteral hw spells).text) ?_
    refine .skip (fun s r spells _ => (word.noLiteral hw spells).number) ?_
    exact ((boolLiteral_reads word _).mapped _).either_left _
  | named x =>
    apply spaced_reads
    refine .skip (fun s hs => misses_string (c := ':') (by decide) hs) ?_
    refine .skip (fun s hs => misses_number (c := ':') (by decide) hs) ?_
    refine .skip (fun s hs => boolLiteral_misses_sign hs (by rfl)) ?_
    exact ((namedParameter_takes wf).mapped _).either_left _
  | positional written =>
    have first := written.first
    apply spaced_reads
    refine .skip (fun s hs => misses_string (c := '?') (by decide) (first ▸ hs)) ?_
    refine .skip (fun s hs => misses_number (c := '?') (by decide) (first ▸ hs)) ?_
    refine .skip (fun s hs => boolLiteral_misses_sign hs (by rw [first]; decide)) ?_
    refine .skip (fun s hs => misses_named (c := '?') (by decide) (first ▸ hs)) ?_
    exact ((positionalParameter_takes written wf).mapped _).either_left _
  | @aggregate a ts written =>
    have read := ((aggregate_reads written wf (Stop [] [])).mapped Operand.aggregate).either_left
      (mapped .path pathExpr)
    cases written with
    | @mk function distinct path t flag ts word _ _ =>
      have hw : IsWord (aggregateWord function) := by cases function <;> rfl
      have ht : lower (aggregateWord function).toList ≠ lower "TRUE".toList := by cases function <;> decide
      have hf : lower (aggregateWord function).toList ≠ lower "FALSE".toList := by cases function <;> decide
      refine operand_reads_name (fun s r spells => ⟨word.noLiteral hw spells, ?_⟩) read
      exact ((word.misses hw spells (by rfl) ht).mapped _).either ((word.misses hw spells (by rfl) hf).mapped _)
  | @path p ts written =>
    have read := ((path_reads written wf).mapped Operand.path)
    have either_path : Reads (either (mapped Operand.aggregate aggregateExpr) (mapped .path pathExpr)) ts (.path p)
        (Stop [] []) :=
      .skip (fun s r spells hr => aggregateExpr_misses_path written wf spells hr) read
    have late : ∀ s r, Spells ts s r → NoLiteral s ∧ Misses boolLiteral s := by
      intro s r spells
      have stop : Stop [] ["TRUE", "FALSE"] s := written.stop wf spells.append_nil rfl (by decide)
      have no_bool := boolLiteral_misses stop.gap (stop.word _ (by decide)) (stop.word _ (by decide))
      exact ⟨written.noLiteral wf spells, no_bool⟩
    cases written <;> exact operand_reads_name late either_path

/-! ## What an operand opens with -/

/-- no parenthesis, no NOT, and nothing that would go on a relation -/
structure Opens (s : List Char) : Prop where
  gap : Clear isGap s
  sign : ∀ c ∈ ['(', '=', '>'], s.head? ≠ some c
  word : lead s ≠ lower "NOT".toList

theorem Stop.opens (h : Stop ['=', '>'] ["NOT"] s) : Opens s := by
  refine ⟨h.gap, ?_, h.word _ (List.mem_singleton_self _)⟩
  intro c hc
  rcases List.mem_cons.1 hc with rfl | hc
  · exact h.head_ne (.inl rfl)
  · exact h.head_ne (.inr hc)

theorem Keyword.opens (h : Keyword word t) (hw : IsWord word) (ne : lower word.toList ≠ lower "NOT".toList)
    (spells : Spells (t :: ts) s r) : Opens s :=
  (stop_keyword spells h hw (by rfl) (by simpa using ne)).opens

theorem opens_sign (spells : Spells (t :: ts) s r) (ha : t.first.isAlpha = false) (hs : t.first ∉ ['(', '=', '>']) :
    Opens s := by
  refine ⟨spells.clear, ?_, lead_ne spells.head ha rfl⟩
  intro c hc heq
  cases spells.head.symm.trans heq
  exact hs hc

theorem WrittenOperand.opens {o : Operand} (h : WrittenOperand o ts) (wf : o.WellFormed)
    (spells : Spells (ts ++ us) s r) : Opens s := by
  cases h with
  | string x => exact opens_sign spells (by rfl) (by simp [quotedToken])
  | number plain =>
    refine opens_sign spells ?_ ?_
    · rcases wf.first plain with h | h
      · rw [h]; rfl
      · cases ha : Char.isAlpha _ with
        | false => rfl
        | true => rw [(isAlpha_bounds ha).2] at h; cases h
    · simp only [List.mem_cons, List.not_mem_nil, or_false, not_or]
      exact ⟨wf.first_ne plain (by decide), wf.first_ne plain (by decide), wf.first_ne plain (by decide)⟩
  | @bool value t word => cases value <;> exact word.opens rfl (by decide) spells
  | named x => exact opens_sign spells (by rfl) (by simp [namedToken])
  | positional written => exact opens_sign spells (by rw [written.first]; rfl) (by rw [written.first]; decide)
  | aggregate written =>
    cases written with
    | @mk function distinct path t flag ts word _ _ => cases function <;> exact word.opens rfl (by decide) spells
  | path written => exact (written.stop wf spells (by rfl) (by decide)).opens

end EntitySearch.Query
