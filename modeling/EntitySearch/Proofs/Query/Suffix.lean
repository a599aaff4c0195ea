/-
Readers take from the front of a text only.

Whether it fits, misses or fails, a reader leaves an end of the text that it was given (`TakesFront`). Every way to put
readers together keeps this, so every reader of the grammar has it, up to that of a whole query (`statement_takesFront`).
What is left behind an end of a text begins between two of its characters, so the place that a syntax error names is one
where the text can be cut (`parse_error_isValid`).
-/
import EntitySearch.Proofs.Query.Quoted
import EntitySearch.Query.Reader.Statement

namespace EntitySearch.Query

open Text

variable {α β : Type}

/-- what is left of the text where an attempt ends -/
def Outcome.left : Outcome α → List Char
  | .ok _ rest => rest
  | .miss fault => fault.rest
  | .fail fault => fault.rest

/-- whatever an attempt ends in, it leaves an end of the text -/
def TakesFront (p : Reader α) : Prop := ∀ s, (p s).left <:+ s

namespace Outcome

variable {o : Outcome α} {s : List Char}

@[simp] theorem left_map (f : α → β) (o : Outcome α) : (o.map f).left = o.left := by cases o <;> rfl

@[simp] theorem left_firm (o : Outcome α) : o.firm.left = o.left := by cases o <;> rfl

@[simp] theorem left_blame (complaint : Complaint) (o : Outcome α) : (o.blame complaint).left = o.left := by
  cases o <;> rfl

theorem left_orElse (h : o.left <:+ s) {other : Outcome α} (h' : other.left <:+ s) : (o.orElse other).left <:+ s := by
  cases o with
  | ok => exact h
  | miss => exact h'
  | fail => exact h

/-- what comes next is read behind the first attempt, or finds fault with the text before it -/
theorem left_andThen (h : o.left <:+ s) {next : α → Reader β} (hn : ∀ a r, r <:+ s → (next a r).left <:+ s) :
    (o.andThen next).left <:+ s := by
  cases o with
  | ok a rest => exact hn a rest h
  | miss => exact h
  | fail => exact h

end Outcome

/-! ## Readers put together -/

namespace TakesFront

variable {p q : Reader α} {r : Reader β} {f : α → Reader β}

theorem give (a : α) : TakesFront (give a) := fun s => List.suffix_refl s

theorem followed (hp : TakesFront p) (hf : ∀ a, TakesFront (f a)) : TakesFront (followed p f) := fun s =>
  Outcome.left_andThen (hp s) fun a m hm => (hf a m).trans hm

theorem andRead (hp : TakesFront p) (hr : TakesFront r) : TakesFront (andRead p r) := hp.followed fun _ => hr

theorem thenDrop (hp : TakesFront p) (hr : TakesFront r) : TakesFront (thenDrop p r) :=
  hp.followed fun a => hr.followed fun _ => .give a

theorem mapped (hp : TakesFront p) (f : α → β) : TakesFront (mapped f p) := fun s => by
  rw [Query.mapped, Outcome.left_map]
  exact hp s

theorem either (hp : TakesFront p) (hq : TakesFront q) : TakesFront (either p q) := fun s =>
  Outcome.left_orElse (hp s) (hq s)

theorem firmly (hp : TakesFront p) : TakesFront (firmly p) := fun s => by
  rw [Query.firmly, Outcome.left_firm]
  exact hp s

theorem blaming (hp : TakesFront p) (complaint : Complaint) : TakesFront (blaming complaint p) := fun s => by
  rw [Query.blaming, Outcome.left_blame]
  exact hp s

theorem require (hp : TakesFront p) (complaint : Complaint) : TakesFront (require complaint p) :=
  hp.firmly.blaming complaint

theorem optional (hp : TakesFront p) : TakesFront (optional p) := fun s =>
  Outcome.left_orElse (by simpa using hp s) (List.suffix_refl s)

theorem present (hp : TakesFront p) : TakesFront (present p) := hp.optional.mapped _

theorem ok (hp : TakesFront p) {s rest : List Char} {a : α} (h : p s = .ok a rest) : rest <:+ s := by
  have left := hp s
  rwa [h] at left

theorem fail (hp : TakesFront p) {s : List Char} {fault : Fault} (h : p s = .fail fault) : fault.rest <:+ s := by
  have left := hp s
  rwa [h] at left

theorem many (hp : TakesFront p) : TakesFront (many p) := by
  intro s
  induction s using Query.many.induct p with
  | case1 s fault h =>
    rw [Query.many, h]
    exact List.suffix_refl s
  | case2 s fault h =>
    rw [Query.many, h]
    exact hp.fail h
  | case3 s a rest h shorter ih =>
    rw [many_ok h shorter, Outcome.left_map]
    exact ih.trans (hp.ok h)
  | case4 s a rest h longer =>
    rw [Query.many, h]
    simp only [longer, dif_neg, not_false_eq_true]
    exact List.suffix_refl s

theorem separatedTail (hr : TakesFront r) (hp : TakesFront p) : TakesFront (separatedTail r p) := by
  intro s
  induction s using Query.separatedTail.induct r p with
  | case1 s fault h =>
    rw [Query.separatedTail, h]
    exact List.suffix_refl s
  | case2 s fault h =>
    rw [Query.separatedTail, h]
    exact hr.fail h
  | case3 s b between h fault h' =>
    rw [Query.separatedTail, h]
    simp only [h']
    exact List.suffix_refl s
  | case4 s b between h fault h' =>
    rw [Query.separatedTail, h]
    simp only [h']
    exact (hp.fail h').trans (hr.ok h)
  | case5 s b between h a rest h' shorter ih =>
    rw [separatedTail_ok h h' shorter, Outcome.left_map]
    exact ih.trans ((hp.ok h').trans (hr.ok h))
  | case6 s b between h a rest h' longer =>
    rw [Query.separatedTail, h]
    simp only [h', longer, dif_neg, not_false_eq_true]
    exact List.suffix_refl s

theorem separated (hr : TakesFront r) (hp : TakesFront p) : TakesFront (separated r p) :=
  hp.followed fun _ => (hr.separatedTail hp).mapped _

/-- what was read may still be found at fault, with the text before it -/
theorem checked (hp : TakesFront p) {accept : α → List Char → Bool} {g : α → β} {complaints : List Complaint}
    {q : Reader β} (hq : ∀ s, q s = (p s).andThen fun a rest =>
      if accept a rest then .miss ⟨s, complaints⟩ else .ok (g a) rest) : TakesFront q := by
  intro s
  rw [hq]
  refine Outcome.left_andThen (hp s) fun a rest hrest => ?_
  split
  · exact List.suffix_refl s
  · exact hrest

end TakesFront

/-! ## Signs and names -/

theorem gaps_takesFront : TakesFront gaps := fun _ => List.dropWhile_suffix _

theorem TakesFront.spaced {p : Reader α} (hp : TakesFront p) : TakesFront (spaced p) :=
  gaps_takesFront.andRead (hp.thenDrop gaps_takesFront)

theorem sign_takesFront (c : Char) : TakesFront (sign c) := by
  intro s
  cases s with
  | nil => exact List.suffix_refl []
  | cons d rest =>
    rw [sign]
    split
    · exact List.suffix_cons d rest
    · exact List.suffix_refl _

theorem exactly_takesFront (word : List Char) : TakesFront (exactly word) := by
  intro s
  rw [exactly]
  split
  · exact List.drop_suffix _ s
  · exact List.suffix_refl s

theorem run_takesFront (inClass : Char → Bool) : TakesFront (run inClass) := by
  intro s
  rw [run]
  split
  · exact List.suffix_refl s
  · exact List.dropWhile_suffix _

theorem keyword_takesFront (word : String) : TakesFront (keyword word) := by
  refine TakesFront.spaced fun s => ?_
  split
  · exact List.suffix_refl s
  · rename_i rest h
    obtain ⟨front, rfl, -⟩ := dropWord_some h
    split <;> exact List.suffix_append front rest

theorem name_takesFront : TakesFront name := by
  intro s
  cases s with
  | nil => exact List.suffix_refl []
  | cons c s =>
    rw [name]
    split
    · exact (List.dropWhile_suffix _).trans (List.suffix_cons c s)
    · exact List.suffix_refl _

theorem furtherNames_takesFront : TakesFront (many (andRead (sign '.') name)) :=
  ((sign_takesFront '.').andRead name_takesFront).many

theorem aliasName_takesFront : TakesFront aliasName := name_takesFront.spaced.checked fun _ => rfl

theorem entityName_takesFront : TakesFront entityName :=
  ((name_takesFront.followed fun _ => furtherNames_takesFront.mapped _).mapped _).spaced.checked fun _ => rfl

/-! ## Operands -/

theorem quotedRest_suffix {s text rest : List Char} (h : quotedRest s = some (text, rest)) : rest <:+ s := by
  obtain ⟨rfl, -⟩ := quotedRest_eq_some h
  exact (List.suffix_cons ..).trans (List.suffix_append ..)

theorem stringLiteral_takesFront : TakesFront stringLiteral := by
  intro s
  unfold stringLiteral
  split
  · split
    · exact (quotedRest_suffix ‹_›).trans (List.suffix_cons ..)
    · exact List.suffix_refl _
  · exact List.suffix_refl _

theorem unsignedNumber_takesFront : TakesFront unsignedNumber :=
  ((run_takesFront _).followed fun _ => (sign_takesFront '.').andRead ((run_takesFront _).mapped _)).either
    (run_takesFront _)

theorem numberLiteral_takesFront : TakesFront numberLiteral :=
  TakesFront.checked ((sign_takesFront '-').present.followed fun _ => unsignedNumber_takesFront.mapped _) fun _ => rfl

theorem boolLiteral_takesFront : TakesFront boolLiteral :=
  ((keyword_takesFront "TRUE").mapped _).either ((keyword_takesFront "FALSE").mapped _)

theorem namedParameter_takesFront : TakesFront namedParameter := (sign_takesFront ':').andRead (run_takesFront _)

theorem positionalParameter_takesFront : TakesFront positionalParameter :=
  (sign_takesFront '?').andRead ((run_takesFront _).optional.mapped _)

theorem plainPath_takesFront : TakesFront plainPath := by
  refine gaps_takesFront.andRead fun s => Outcome.left_andThen (name_takesFront s) fun first rest hrest => ?_
  split
  · exact List.suffix_refl s
  · exact ((furtherNames_takesFront.mapped _).thenDrop gaps_takesFront rest).trans hrest

theorem indexOperand_takesFront : TakesFront indexOperand :=
  TakesFront.spaced <| (stringLiteral_takesFront.mapped _).either <| (numberLiteral_takesFront.mapped _).either <|
    (namedParameter_takesFront.mapped _).either <| (positionalParameter_takesFront.mapped _).either <|
      plainPath_takesFront.mapped _

theorem bracketed_takesFront : TakesFront bracketed :=
  (sign_takesFront '[').spaced.andRead
    ((indexOperand_takesFront.require .index).thenDrop ((sign_takesFront ']').spaced.require .closingBracket))

theorem pathExpr_takesFront : TakesFront pathExpr :=
  plainPath_takesFront.followed fun _ => bracketed_takesFront.optional.mapped _

theorem closing_takesFront : TakesFront (require .closingParenthesis (spaced (sign ')'))) :=
  (sign_takesFront ')').spaced.require _

theorem aggregateName_takesFront : TakesFront aggregateName :=
  ((keyword_takesFront "SUM").mapped _).either <| ((keyword_takesFront "AVG").mapped _).either <|
    ((keyword_takesFront "MIN").mapped _).either <| ((keyword_takesFront "MAX").mapped _).either <|
      (keyword_takesFront "COUNT").mapped _

theorem aggregateExpr_takesFront : TakesFront aggregateExpr :=
  aggregateName_takesFront.followed fun _ => (sign_takesFront '(').spaced.andRead <|
    (keyword_takesFront "DISTINCT").present.followed fun _ =>
      ((pathExpr_takesFront.require .aggregatePath).mapped _).thenDrop closing_takesFront

theorem operand_takesFront : TakesFront operand :=
  TakesFront.spaced <| (stringLiteral_takesFront.mapped _).either <| (numberLiteral_takesFront.mapped _).either <|
    (boolLiteral_takesFront.mapped _).either <| (namedParameter_takesFront.mapped _).either <|
      (positionalParameter_takesFront.mapped _).either <| (aggregateExpr_takesFront.mapped _).either <|
        pathExpr_takesFront.mapped _

/-! ## Conditions -/

theorem relation_takesFront : TakesFront relation := by
  have word (w : List Char) (r : Relation) : TakesFront (mapped (fun _ => r) (exactly w)) :=
    (exactly_takesFront w).mapped _
  exact TakesFront.spaced <| (word _ _).either <| (word _ _).either <| (word _ _).either <| (word _ _).either <|
    (word _ _).either <| (word _ _).either (word _ _)

theorem escapeLiteral_takesFront : TakesFront escapeLiteral := by
  refine fun s => Outcome.left_andThen (stringLiteral_takesFront.spaced s) fun text rest hrest => ?_
  split
  · exact hrest
  · exact List.suffix_refl s

/-- the other reader may go back behind the text that the word was looked for in -/
theorem afterWord_left {word : String} {continuation other : Reader α} {s rest : List Char}
    (hc : TakesFront continuation) (hrest : rest <:+ s) (ho : (other rest).left <:+ s) :
    (afterWord word continuation other rest).left <:+ s := by
  rw [afterWord]
  split
  · exact (hc _).trans (((keyword_takesFront word).ok ‹_›).trans hrest)
  · exact ho

variable (subject : Operand) (negated : Bool)

theorem nullTest_takesFront : TakesFront (nullTest subject) :=
  (keyword_takesFront "NOT").present.followed fun _ => ((keyword_takesFront "NULL").require _).mapped _

theorem rangeTest_takesFront : TakesFront (rangeTest subject negated) :=
  (operand_takesFront.require .lowerBound).followed fun _ =>
    ((keyword_takesFront "AND").require .andInBetween).andRead ((operand_takesFront.require .upperBound).mapped _)

theorem listTest_takesFront : TakesFront (listTest subject negated) := by
  have values := (sign_takesFront ',').spaced.separated operand_takesFront
  have list := (sign_takesFront '(').spaced.andRead (values.thenDrop (sign_takesFront ')').spaced)
  exact (list.require .valueList).mapped _

theorem patternTest_takesFront : TakesFront (patternTest subject negated) :=
  (operand_takesFront.require .pattern).followed fun _ =>
    ((keyword_takesFront "ESCAPE").andRead (escapeLiteral_takesFront.require .escapeLiteral)).optional.mapped _

theorem comparison_takesFront : TakesFront (comparison subject) :=
  (relation_takesFront.blaming .operator).followed fun _ => (operand_takesFront.require .rightOperand).mapped _

/-- a comparison is read from where NOT was looked for -/
theorem testTail_takesFront : TakesFront (testTail subject) := by
  refine fun s => Outcome.left_andThen ((keyword_takesFront "NOT").present s) fun negated rest hrest => ?_
  refine afterWord_left (rangeTest_takesFront subject negated) hrest ?_
  refine afterWord_left (listTest_takesFront subject negated) hrest ?_
  refine afterWord_left (patternTest_takesFront subject negated) hrest ?_
  cases negated with
  | true => exact hrest
  | false => exact comparison_takesFront subject s

theorem test_takesFront : TakesFront test :=
  operand_takesFront.followed fun subject s =>
    afterWord_left (nullTest_takesFront subject) (List.suffix_refl s) (testTail_takesFront subject s)

theorem TakesFront.chain {part : Reader (Condition Operand)} (hp : TakesFront part) (word : String)
    (complaint : Complaint) (connective : List (Condition Operand) → Condition Operand) :
    TakesFront (chain word complaint connective part) :=
  hp.followed fun _ => ((keyword_takesFront word).andRead (hp.require complaint)).many.mapped _

theorem TakesFront.disjunction {part : Reader (Condition Operand)} (hp : TakesFront part) :
    TakesFront (disjunction part) :=
  (hp.chain "AND" .afterAnd .and).chain "OR" .afterOr .or

theorem TakesFront.parenthesized {inner : Reader (Condition Operand)} (hi : TakesFront inner) :
    TakesFront (parenthesized inner) :=
  (sign_takesFront '(').spaced.andRead (hi.thenDrop closing_takesFront)

theorem negation_takesFront (room : Nat) : TakesFront (negation room) := by
  induction room with
  | zero => exact fun s => List.suffix_refl s
  | succ room ih =>
    exact ((keyword_takesFront "NOT").andRead (ih.mapped _).firmly).either
      (ih.disjunction.parenthesized.either test_takesFront)

theorem condition_takesFront : TakesFront condition := (negation_takesFront _).disjunction

/-! ## Queries -/

theorem TakesFront.listOf {p : Reader α} (hp : TakesFront p) : TakesFront (listOf p) :=
  (sign_takesFront ',').spaced.separated hp

theorem selectClause_takesFront : TakesFront selectClause := by
  have item : TakesFront selectItem := (aggregateExpr_takesFront.mapped _).either (pathExpr_takesFront.mapped _)
  exact (keyword_takesFront "SELECT").andRead <| (keyword_takesFront "DISTINCT").present.followed fun _ =>
    (item.listOf.require .selectItems).mapped _

theorem asAlias_takesFront : TakesFront asAlias := (keyword_takesFront "AS").optional.andRead aliasName_takesFront

theorem source_takesFront : TakesFront source :=
  entityName_takesFront.followed fun _ => asAlias_takesFront.optional.mapped _

theorem joinKind_takesFront : TakesFront joinKind :=
  (((keyword_takesFront "LEFT").andRead (keyword_takesFront "OUTER").optional).mapped _).either
    ((keyword_takesFront "INNER").mapped _)

theorem join_takesFront : TakesFront join :=
  joinKind_takesFront.optional.followed fun _ => (keyword_takesFront "JOIN").andRead <|
    (keyword_takesFront "FETCH").present.followed fun _ =>
      (pathExpr_takesFront.require .joinPath).followed fun _ => (asAlias_takesFront.require .joinAlias).mapped _

theorem fromClause_takesFront : TakesFront fromClause :=
  (keyword_takesFront "FROM").andRead <| (source_takesFront.listOf.require .sources).followed fun _ =>
    join_takesFront.many.mapped _

theorem whereClause_takesFront : TakesFront whereClause :=
  (keyword_takesFront "WHERE").andRead (condition_takesFront.require .inWhere)

theorem groupByClause_takesFront : TakesFront groupByClause :=
  (keyword_takesFront "GROUP").andRead <| ((keyword_takesFront "BY").require .byAfterGroup).andRead <|
    pathExpr_takesFront.listOf.require .inGroupBy

theorem havingClause_takesFront : TakesFront havingClause :=
  (keyword_takesFront "HAVING").andRead (condition_takesFront.require .inHaving)

theorem orderByClause_takesFront : TakesFront orderByClause := by
  have direction : TakesFront direction :=
    ((keyword_takesFront "ASC").mapped _).either ((keyword_takesFront "DESC").mapped _)
  have item : TakesFront orderItem := pathExpr_takesFront.followed fun _ => direction.optional.mapped _
  exact (keyword_takesFront "ORDER").andRead <| ((keyword_takesFront "BY").require .byAfterOrder).andRead <|
    item.listOf.require .inOrderBy

/-- **A query is taken from the front of a text**, and where there is none, the fault is at an end of the text. -/
theorem statement_takesFront : TakesFront statement :=
  gaps_takesFront.andRead <| selectClause_takesFront.optional.followed fun _ =>
    (fromClause_takesFront.require .fromClause).followed fun _ => whereClause_takesFront.optional.followed fun _ =>
      groupByClause_takesFront.optional.followed fun _ => havingClause_takesFront.optional.followed fun _ =>
        orderByClause_takesFront.optional.followed fun _ => (sign_takesFront ';').spaced.optional.mapped _

/-! ## Places of syntax errors -/

/-- bytes are counted as they are stored -/
theorem byteLength_eq (s : List Char) : byteLength s = (String.ofList s).utf8ByteSize := by
  induction s with
  | nil => rfl
  | cons c s ih =>
    rw [String.ofList_cons, String.utf8ByteSize_append, String.utf8ByteSize_singleton, ← ih]
    rfl

/-- what stands before an end of a text ends between two characters -/
theorem isValid_before {text : String} {rest : List Char} (h : rest <:+ text.toList) :
    String.Pos.Raw.IsValid text ⟨byteLength text.toList - byteLength rest⟩ := by
  obtain ⟨front, hfront⟩ := h
  have whole : text = String.ofList front ++ String.ofList rest := by
    rw [← String.ofList_append, hfront, String.ofList_toList]
  refine String.Pos.Raw.isValid_iff_exists_append.2 ⟨_, _, whole, ?_⟩
  rw [← hfront, byteLength_eq, byteLength_eq, String.ofList_append, String.utf8ByteSize_append, Nat.add_sub_cancel]
  rfl

/-- **A text that is no query is at fault at a place where it can be cut.** -/
theorem parse_error_isValid {text : String} {e : SyntaxError} (h : parse text = .error e) :
    String.Pos.Raw.IsValid text ⟨e.offset⟩ := by
  have left := statement_takesFront text.toList
  unfold parse at h
  split at h
  · cases h
  · rename_i heq
    rw [heq] at left
    cases h
    exact isValid_before left
  · rename_i heq
    rw [heq] at left
    cases h
    exact isValid_before left
  · rename_i heq
    rw [heq] at left
    cases h
    exact isValid_before left

end EntitySearch.Query
