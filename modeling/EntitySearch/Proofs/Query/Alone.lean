/-
What is read of a text is a query by itself.

Clauses are taken as they stand before a cut, and so is a query without the semicolon behind it (`unended_steady`): an
alias, a join or a further element of a list that was tried and given up is given up again. So a query that is read from
the front of a text is one by itself, with nothing behind it, and what is read of it does not change when a semicolon
and any text come behind it (`statement_stands_alone`).
-/
import EntitySearch.Proofs.Query.CutCondition

namespace EntitySearch.Query

open Text

variable {α β : Type} {s r t t' u v g : List Char}

/-! ## Lists and names -/

/-- what may stand behind a comma is missed with the comma -/
theorem furtherElement_declines {p : Reader α} (hd : Declines Apart p) :
    Declines Apart (andRead (spaced (sign ',')) p) :=
  (sign_lexeme (by rfl)).spaced.declines (sign_declines rfl (by decide) _).spaced.misses fun _ => hd

theorem Steady.listOf {p : Reader α} (hp : Steady Apart p) (hd : Declines Apart p) : Steady Apart (listOf p) := by
  rw [Query.listOf, separated, separatedTail_eq_many]
  exact hp.followed fun _ => ((comma_steady.andRead hp).many (furtherElement_declines hd).misses).mapped _

theorem aliasName_steady : Steady Apart aliasName :=
  name_readsWord.lexeme.toSteady.spaced.checked isReserved [.reservedAlias]

theorem aliasName_declines : Declines Apart aliasName :=
  freeName_readsWord.declines.checked_spaced [.reservedAlias]

theorem dottedNames_steady : Steady Apart dottedNames :=
  name_readsWord.lexeme.toSteady.followed fun _ => furtherNames_steady.mapped _

theorem entityName_steady : Steady Apart entityName :=
  (dottedNames_steady.mapped Text.dotted).spaced.checked isReserved [.entityName]

/-- no reserved word has a full stop in it -/
theorem not_isReserved_of_point {x : String} (h : '.' ∈ x.toList) : isReserved x = false := by
  refine List.any_eq_false.2 fun w hw same => ?_
  have letters : ∀ w ∈ reservedWords, '.' ∉ lower w.toList := by decide
  refine letters w hw ?_
  rw [eq_of_beq same]
  exact List.mem_map_of_mem (f := Char.toLower) h

/-- a reserved word is read as the name of an entity only if it goes on behind a full stop -/
theorem entityName_declines : Declines Apart entityName := by
  have blank : ∀ {s}, Blank s → Misses (checked isReserved [.entityName] (mapped dotted dottedNames)) s := fun hs =>
    checked_misses.2 (.inl ((name_readsWord.declines.blank hs).followed _ |>.mapped _))
  suffices declines : Declines Apart (checked isReserved [.entityName] (mapped dotted dottedNames)) from
    declines.checked_spaced _
  refine ⟨blank, fun {u t t'} missed hu closes => ?_⟩
  rcases eq_or_ne u [] with rfl | hne
  · exact blank closes.blank
  rcases checked_misses.1 missed with missed | ⟨e, r, read, reserved⟩
  · rcases followed_misses.1 (mapped_misses.1 missed) with missed | ⟨first, m, -, missed⟩
    · exact checked_misses.2 (.inl (((name_readsWord.declines.misses missed hu closes).followed _).mapped _))
    · exact absurd missed (furtherNames_settles.mapped _ m)
  · obtain ⟨names, all, rfl⟩ := mapped_eq_ok.1 read
    obtain ⟨first, m, word, rest⟩ := followed_eq_ok.1 all
    obtain ⟨others, more, rfl⟩ := mapped_eq_ok.1 rest
    have alone : others = [] := by
      cases others with
      | nil => rfl
      | cons x others =>
        have point : '.' ∈ (dotted (first :: x :: others)).toList := by simp [toList_dotted, dottedTail]
        rw [not_isReserved_of_point point] at reserved
        cases reserved
    subst alone
    obtain ⟨v, rfl, hv⟩ := name_readsWord.ends_before word hu hne
    have word' := (name_readsWord.lexeme.ok word hv closes).1
    have no_more := many_rest more
    obtain rfl : r = v ++ t := by
      rcases many_eq_ok.1 more with ⟨-, same, -⟩ | ⟨_, _, _, hcons, -⟩
      · exact same
      · cases hcons
    have no_more' := many_misses (furtherName_declines.misses no_more hv closes)
    exact checked_misses.2 (.inr ⟨_, _, mapped_ok (followed_eq_ok.2 ⟨_, _, word', mapped_ok no_more' _⟩) _, reserved⟩)

/-! ## Clauses -/

theorem selectClause_declines : Declines Apart selectClause :=
  (keyword_declines (by rfl)).before fun _ => (Settles.present _).followed fun _ => (Settles.require _ _).mapped _

theorem selectClause_steady : Steady Apart selectClause := by
  have item : Steady Apart selectItem :=
    (aggregateExpr_steady.mapped _).either (aggregateExpr_declines.mapped _).misses (pathExpr_steady.mapped _)
  have no_item : Declines Apart selectItem := (aggregateExpr_declines.mapped _).either (pathExpr_declines.mapped _)
  exact (keyword_steady (by rfl)).andRead <|
    ((keyword_steady (by rfl)).present (keyword_declines (by rfl)).misses).followed fun _ =>
      ((item.listOf no_item).require _).mapped _

theorem asAlias_steady : Steady Apart asAlias :=
  ((keyword_steady (by rfl)).optional (keyword_declines (by rfl)).misses).andRead aliasName_steady

/-- AS alone is no alias, even if one stands behind the cut -/
theorem asAlias_declines : Declines Apart asAlias :=
  ((keyword_lexeme (by rfl)).optional (keyword_declines (by rfl))).declines (Settles.optional _).keepsMisses
    fun _ => aliasName_declines

theorem source_steady : Steady Apart source :=
  entityName_steady.followed fun _ => (asAlias_steady.optional asAlias_declines.misses).mapped _

theorem source_declines : Declines Apart source := entityName_declines.before fun _ => (Settles.optional _).mapped _

theorem joinKind_lexeme : Lexeme Apart joinKind := by
  have left : Lexeme Apart (andRead (keyword "LEFT") (optional (keyword "OUTER"))) :=
    (keyword_lexeme (by rfl)).followed (fun _ => (keyword_lexeme (by rfl)).optional (keyword_declines (by rfl)))
      fun _ => .optional _
  have no_left : Declines Apart (andRead (keyword "LEFT") (optional (keyword "OUTER"))) :=
    (keyword_declines (by rfl)).before fun _ => .optional _
  exact (left.mapped _).either (no_left.mapped _) ((keyword_lexeme (by rfl)).mapped _)

theorem joinKind_declines : Declines Apart joinKind :=
  (((keyword_declines (by rfl)).before fun _ => .optional _).mapped _).either ((keyword_declines (by rfl)).mapped _)

theorem join_steady : Steady Apart join :=
  (joinKind_lexeme.toSteady.optional joinKind_declines.misses).followed fun _ => (keyword_steady (by rfl)).andRead <|
    ((keyword_steady (by rfl)).present (keyword_declines (by rfl)).misses).followed fun _ =>
      (pathExpr_steady.require _).followed fun _ => (asAlias_steady.require _).mapped _

/-- LEFT or INNER alone is no join, even if JOIN stands behind the cut -/
theorem join_declines : Declines Apart join :=
  (joinKind_lexeme.optional joinKind_declines).declines (Settles.optional _).keepsMisses fun _ =>
    (keyword_declines (by rfl)).before fun _ => (Settles.present _).followed fun _ => (Settles.require _ _).followed
      fun _ => (Settles.require _ _).mapped _

theorem fromClause_steady : Steady Apart fromClause :=
  (keyword_steady (by rfl)).andRead <| ((source_steady.listOf source_declines).require _).followed fun _ =>
    (join_steady.many join_declines.misses).mapped _

/-- a clause of a word and a condition -/
theorem wordedCondition_steady {word : String} (hw : IsWord word) (complaint : Complaint) :
    Steady Apart (optional (andRead (keyword word) (require complaint condition))) :=
  ((keyword_steady hw).andRead (condition_steady.require _)).optional
    ((keyword_declines hw).before fun _ => .require _ _).misses

/-- a clause of a word, BY and a list -/
theorem wordedList_steady {word : String} (hw : IsWord word) (missing complaint : Complaint) {p : Reader α}
    (hp : Steady Apart p) (hd : Declines Apart p) :
    Steady Apart (optional (andRead (keyword word)
      (andRead (require missing (keyword "BY")) (require complaint (listOf p))))) :=
  ((keyword_steady hw).andRead (((keyword_steady (by rfl)).require _).andRead ((hp.listOf hd).require _))).optional
    ((keyword_declines hw).before fun _ => (Settles.require _ _).andRead (.require _ _)).misses

theorem orderItem_steady : Steady Apart orderItem := by
  have direction : Steady Apart direction :=
    ((keyword_steady (by rfl)).mapped _).either ((keyword_declines (by rfl)).mapped _).misses
      ((keyword_steady (by rfl)).mapped _)
  have no_direction : Declines Apart Query.direction :=
    ((keyword_declines (by rfl)).mapped _).either ((keyword_declines (by rfl)).mapped _)
  exact pathExpr_steady.followed fun _ => (direction.optional no_direction.misses).mapped _

theorem orderItem_declines : Declines Apart orderItem := pathExpr_declines.before fun _ => (Settles.optional _).mapped _

/-! ## Queries -/

/-- a query without the semicolon behind it -/
def unended : Reader Statement :=
  andRead gaps
    (followed (optional selectClause) fun select =>
      followed (require .fromClause fromClause) fun (sources, joins) =>
        followed (optional whereClause) fun filter =>
          followed (optional groupByClause) fun groupBy =>
            followed (optional havingClause) fun having =>
              mapped (fun orderBy => ⟨select, sources, joins, filter, groupBy, having, orderBy⟩)
                (optional orderByClause))

theorem followed_followed {γ : Type} (p : Reader α) (f : α → Reader β) (g : β → Reader γ) :
    followed (followed p f) g = followed p fun a => followed (f a) g := by
  funext s
  unfold followed
  cases p s <;> rfl

theorem followed_mapped {γ : Type} (f : α → β) (p : Reader α) (g : β → Reader γ) :
    followed (mapped f p) g = followed p fun a => g (f a) := by
  funext s
  unfold followed mapped
  cases p s <;> rfl

theorem statement_eq :
    statement = followed unended fun q => mapped (fun _ => q) (optional (spaced (sign ';'))) := by
  simp only [unended, andRead, followed_followed, followed_mapped]
  rfl

theorem unended_steady : Steady Apart unended :=
  gaps_lexeme.toSteady.andRead <|
    (selectClause_steady.optional selectClause_declines.misses).followed fun _ =>
      (fromClause_steady.require _).followed fun _ => (wordedCondition_steady (by rfl) _).followed fun _ =>
        (wordedList_steady (by rfl) _ _ pathExpr_steady pathExpr_declines).followed fun _ =>
          (wordedCondition_steady (by rfl) _).followed fun _ =>
            (wordedList_steady (by rfl) _ _ orderItem_steady orderItem_declines).mapped _

/-- the semicolon behind a query, with the gaps around it -/
theorem end_eq_ok {a : Unit} : spaced (sign ';') s = .ok a r ↔
    ∃ g g', AllGaps g ∧ AllGaps g' ∧ s = g ++ ';' :: (g' ++ r) ∧ Clear isGap r := by
  rw [spaced_eq_ok]
  constructor
  · rintro ⟨m, front, rfl⟩
    refine ⟨s.takeWhile isGap, m.takeWhile isGap, fun c hc => List.mem_takeWhile_imp hc,
      fun c hc => List.mem_takeWhile_imp hc, ?_, clear_dropWhile isGap m⟩
    rw [List.takeWhile_append_dropWhile, ← sign_eq_ok.1 front, List.takeWhile_append_dropWhile]
  · rintro ⟨g, g', hg, hg', rfl, hr⟩
    refine ⟨g' ++ r, ?_, dropWhile_front hg' hr⟩
    rw [dropWhile_front hg (clear_cons.2 rfl)]
    exact sign_eq_ok.2 rfl

theorem statement_eq_ok {q : EntitySearch.Statement} : statement s = .ok q r ↔
    ∃ m, unended s = .ok q m ∧ ∃ o, optional (spaced (sign ';')) m = .ok o r := by
  rw [statement_eq, followed_eq_ok]
  simp only [mapped_eq_ok]
  grind

/-- a query at the front of a text is read when nothing comes behind it -/
theorem statement_front {q : EntitySearch.Statement} (h : statement s = .ok q r) :
    ∃ front, s = front ++ r ∧ statement front = .ok q [] := by
  obtain ⟨m, read, o, ended⟩ := statement_eq_ok.1 h
  obtain ⟨u, rfl⟩ := unended_steady.suffix read
  -- what is read without the semicolon stays the same, whatever closes it
  have again {t : List Char} (closes : Closes m t) : unended (u ++ t) = .ok q t :=
    (unended_steady.ok (v := []) read (.nil m) closes).1
  rcases optional_eq_ok.1 ended with ⟨_, -, semicolon⟩ | ⟨-, rfl, -⟩
  · obtain ⟨g, g', hg, hg', rfl, -⟩ := end_eq_ok.1 semicolon
    have closes : Closes (g ++ ';' :: (g' ++ r)) (g ++ ';' :: g') := by
      refine ⟨(blank_append hg).2 fun c hc => by cases hc; rfl, fun clear => ?_⟩
      cases g with
      | nil => exact clear_cons.2 rfl
      | cons c g => exact clear_cons.2 (clear_cons.1 clear)
    have ended' : spaced (sign ';') (g ++ ';' :: g') = .ok () [] :=
      end_eq_ok.2 ⟨g, g', hg, hg', by rw [List.append_nil], clear_nil _⟩
    exact ⟨u ++ (g ++ ';' :: g'), by simp, statement_eq_ok.2 ⟨_, again closes, _, optional_ok ended'⟩⟩
  · have closes : Closes r [] := ⟨(fun _ hc => nomatch hc), fun _ => clear_nil _⟩
    have no_end : Misses (spaced (sign ';')) [] := spaced_misses.2 (sign_misses (by simp))
    refine ⟨u, rfl, statement_eq_ok.2 ⟨[], ?_, _, optional_misses no_end⟩⟩
    have alone := again closes
    rwa [List.append_nil] at alone

/-- the text ends in a semicolon, but for gaps -/
def EndsInSemicolon (s : List Char) : Prop := (s.reverse.dropWhile isGap).head? = some ';'

instance (s : List Char) : Decidable (EndsInSemicolon s) := inferInstanceAs (Decidable (_ = _))

theorem endsInSemicolon_of (front : List Char) (hg : AllGaps g) : EndsInSemicolon (front ++ ';' :: g) := by
  have split : (front ++ ';' :: g).reverse = g.reverse ++ ';' :: front.reverse := by simp
  rw [EndsInSemicolon, split, dropWhile_front (fun c hc => hg c (List.mem_reverse.1 hc)) (clear_cons.2 rfl)]
  rfl

/-- a query is read the same before a semicolon and any text -/
theorem statement_before_semicolon {q : EntitySearch.Statement} (h : statement s = .ok q [])
    (open_end : ¬ EndsInSemicolon s) (t : List Char) : statement (s ++ ';' :: t) = .ok q (t.dropWhile isGap) := by
  obtain ⟨m, read, o, ended⟩ := statement_eq_ok.1 h
  obtain ⟨u, rfl⟩ := unended_steady.suffix read
  rcases optional_eq_ok.1 ended with ⟨_, -, semicolon⟩ | ⟨-, rfl, -⟩
  · obtain ⟨g, g', -, hg', rfl, -⟩ := end_eq_ok.1 semicolon
    refine absurd ?_ open_end
    have := endsInSemicolon_of (u ++ g) hg'
    simpa using this
  · have closes : Closes [] (';' :: t) := ⟨fun c hc => by cases hc; rfl, fun _ => clear_cons.2 rfl⟩
    have again : unended (u ++ ';' :: t) = .ok q (';' :: t) :=
      (unended_steady.ok (v := []) read (.nil []) closes).1
    have semicolon : spaced (sign ';') (';' :: t) = .ok () (t.dropWhile isGap) :=
      spaced_eq_ok.2 ⟨t, sign_eq_ok.2 ((clear_cons.2 rfl : Clear isGap (';' :: t)).dropWhile), rfl⟩
    rw [List.append_nil]
    exact statement_eq_ok.2 ⟨_, again, _, optional_ok semicolon⟩

theorem parse_of_statement {text : String} {q : EntitySearch.Statement} (h : statement text.toList = .ok q []) :
    parse text = .ok q := by
  rw [parse, h]

theorem statement_of_parse {text : String} {q : EntitySearch.Statement} (h : parse text = .ok q) :
    statement text.toList = .ok q [] := by
  unfold parse at h
  split at h
  · cases h
    assumption
  all_goals cases h

/-- a query with something behind it is at fault where the query ends -/
theorem trailing_offset (front rest : List Char) : (trailing (front ++ rest) rest).offset = byteLength front := by
  show byteLength (front ++ rest) - byteLength rest = byteLength front
  rw [byteLength_eq, byteLength_eq, byteLength_eq, String.ofList_append, String.utf8ByteSize_append, Nat.add_sub_cancel]

/-- **What is read of a text is a query by itself.** A query that is read from the front of a text, with or without its
semicolon, is what just that front is read as, and where something is left, the text is at fault where the front ends.
A text that is a query, and does not end in a semicolon, is read as the same query before a semicolon and any text; then
that text is left, without the gaps before it. -/
theorem statement_stands_alone :
    (∀ (text : String) (q : EntitySearch.Statement) (rest : List Char), statement text.toList = .ok q rest →
      ∃ front, text.toList = front ++ rest ∧ parse (String.ofList front) = .ok q ∧
        (rest ≠ [] → parse text = .error (trailing text.toList rest) ∧
          (trailing text.toList rest).offset = byteLength front)) ∧
    ∀ (text : String) (q : EntitySearch.Statement), parse text = .ok q → ¬ EndsInSemicolon text.toList →
      ∀ t, statement (text.toList ++ ';' :: t) = .ok q (t.dropWhile isGap) := by
  constructor
  · intro text q rest h
    obtain ⟨front, split, alone⟩ := statement_front h
    refine ⟨front, split, parse_of_statement (by rwa [String.toList_ofList]), fun hrest => ⟨?_, ?_⟩⟩
    · unfold parse
      rw [h]
      cases rest with
      | nil => exact absurd rfl hrest
      | cons c rest => rfl
    · rw [split]
      exact trailing_offset front rest
  · intro text q h open_end t
    exact statement_before_semicolon (statement_of_parse h) open_end t

/-- digits that belong to a parameter, and the unit of length that somebody wrote behind them -/
theorem statement_stands_alone_unit : ∃ q,
    statement "from Hike where km = ?12mi".toList = .ok q "mi".toList ∧ parse "from Hike where km = ?12" = .ok q ∧
    (∃ e, parse "from Hike where km = ?12mi" = .error e ∧ e.offset = 24) ∧
    statement "from Hike where km = ?12; from Hut".toList = .ok q "from Hut".toList := by
  have read : (match statement "from Hike where km = ?12mi".toList with
      | .ok _ rest => rest == "mi".toList
      | .miss _ => false
      | .fail _ => false) = true := by decide +kernel
  obtain ⟨q, h⟩ : ∃ q, statement "from Hike where km = ?12mi".toList = .ok q "mi".toList := by
    revert read
    cases statement "from Hike where km = ?12mi".toList with
    | ok q rest => exact fun read => ⟨q, by rw [eq_of_beq read]⟩
    | miss | fail => exact fun read => by cases read
  obtain ⟨front, split, alone, left⟩ := statement_stands_alone.1 _ q _ h
  have front_eq : front = "from Hike where km = ?12".toList :=
    (List.append_left_inj "mi".toList).1 (split.symm.trans (by decide +kernel))
  obtain ⟨fault, offset⟩ := left (by decide)
  rw [front_eq, String.ofList_toList] at alone
  have before := statement_stands_alone.2 _ q alone (by decide +kernel) " from Hut".toList
  have text : "from Hike where km = ?12; from Hut".toList =
      "from Hike where km = ?12".toList ++ ';' :: " from Hut".toList := by decide +kernel
  have gap : " from Hut".toList.dropWhile isGap = "from Hut".toList := by decide +kernel
  refine ⟨q, h, alone, ⟨_, fault, ?_⟩, ?_⟩
  · rw [offset, front_eq]
    decide +kernel
  · rw [text, before, gap]

end EntitySearch.Query
