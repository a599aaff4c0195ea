/-
Queries are read as they are written.

The optional clauses of a query come in a fixed order, each behind words that no other one begins with. So what follows
a clause is the word of a later one, a semicolon or the end, and neither a condition nor a list nor an alias goes on
there. `parse_written` is the result: every text of a well-formed statement, with NOTs and parentheses at most 64 deep,
is parsed to just that statement.
-/
import EntitySearch.Proofs.Query.Clause

namespace EntitySearch.Query

open Text

variable {α : Type} {t : Token} {ts us : List Token} {s m r : List Char} {word : String} {others words : List String}
  {signs : List Char} {stop : List Char → Prop} {P : α → List Token → Prop} {o : Option α} {n : Nat}

/-! ## Clauses that may be left out -/

/-- a clause that is there, or else what follows it -/
theorem WrittenClause.next (h : WrittenClause (word :: others) P o ts) (hw : IsWord word)
    (rest : ∀ m r, Spells us m r → stop r → Next signs words m) :
    ∀ m r, Spells (ts ++ us) m r → stop r → Next signs (word :: words) m := by
  intro m r spells hr
  cases h with
  | absent => exact (rest m r spells hr).mono (fun _ hc => hc) fun _ => List.mem_cons_of_mem _
  | present hws _ =>
    cases hws with
    | cons first _ => exact next_keyword spells first hw List.mem_cons_self signs

/-- **A clause is read** if it is there, and missed by its first word if not. What may follow goes on neither. -/
theorem WrittenClause.reads {p : Reader α} {words' : List String} (h : WrittenClause (word :: others) P o ts)
    (hw : IsWord word)
    (body : ∀ a ∈ o, ∀ ws us, List.Forall₂ Keyword others ws → P a us → Reads p (ws ++ us) a (Stop [','] words'))
    (known : ∀ w ∈ words, IsWord w) (filled : ∀ w' ∈ word :: words', w'.toList ≠ [])
    (other : ∀ w ∈ words, ∀ w' ∈ word :: words', lower w.toList ≠ lower w'.toList) :
    Reads (optional (andRead (keyword word) p)) ts o (Next [';'] words) := by
  have stops : ∀ r, Next [';'] words r → Stop [','] (word :: words') r := fun r hr =>
    hr.stop rfl rfl known fun w' hw' => ⟨filled w' hw', fun w hmem => other w hmem w' hw'⟩
  cases h with
  | absent => exact .optional_none fun r hr => ((stops r hr).misses List.mem_cons_self hw).andRead _
  | @present a ws ts hws written =>
    cases hws with
    | @cons _ t _ ws first rest =>
      have whole := (body a rfl ws ts rest written).mono fun r hr =>
        (stops r hr).mono (fun _ hc => hc) fun _ => List.mem_cons_of_mem _
      exact (after_keyword first hw whole).optional_some

/-! ## Conditions and lists -/

/-- a whole condition is read -/
theorem condition_reads {c : Condition Operand} (h : Phrase .disjunction n c ts) (wf : c.WellFormed)
    (deep : n ≤ maxNesting) : Reads condition ts c (Stop [] ["OR", "AND", "ESCAPE"]) :=
  phrase_reads h wf (Nat.lt_succ_of_le deep)

theorem paths_read {paths : List PathExpr} (h : WrittenList WrittenPath paths ts)
    (wf : ListWellFormed PathExpr.WellFormed paths) : Reads (listOf pathExpr) ts paths (Stop [','] []) :=
  list_reads (fun _ _ hp wf => path_reads hp wf) (List.forall_mem_nil _) h wf.2

theorem order_reads {item : OrderItem} (h : WrittenOrder item ts) (wf : item.path.WellFormed) :
    Reads orderItem ts item (Stop [] ["ASC", "DESC"]) := by
  cases h with
  | @ascending p ts flag word hp hf =>
    have path := path_reads hp wf
    cases hf with
    | absent =>
      have no_direction : Reads (optional direction) [] none (Stop [] ["ASC", "DESC"]) :=
        .optional_none fun r hr =>
          ((hr.misses (by decide) (by rfl)).mapped _).either ((hr.misses (by decide) (by rfl)).mapped _)
      rw [List.append_nil]
      exact path.followed_nil (no_direction.mapped _) fun r hr => hr.plain
    | present word =>
      have direction := ((keyword_reads word rfl (Stop [] ["ASC", "DESC"])).mapped fun _ => true).either_left
        (mapped (fun _ => false) (keyword "DESC"))
      exact path.followed (direction.optional_some.mapped _) fun m r spells _ =>
        stop_keyword spells word rfl rfl (List.forall_mem_nil _)
  | @descending p ts t hp word =>
    have direction : Reads direction [t] false (Stop [] ["ASC", "DESC"]) := by
      refine .skip (fun s r spells _ => word.misses rfl spells (by rfl) (by decide)) ?_
      exact (keyword_reads word rfl _).mapped _
    exact (path_reads hp wf).followed (direction.optional_some.mapped _) fun m r spells _ =>
      stop_keyword spells word rfl rfl (List.forall_mem_nil _)

theorem orders_read {items : List OrderItem} (h : WrittenList WrittenOrder items ts)
    (wf : ListWellFormed (fun item => item.path.WellFormed) items) :
    Reads (listOf orderItem) ts items (Stop [','] ["ASC", "DESC"]) :=
  list_reads (fun _ _ hi wf => order_reads hi wf) (by decide) h wf.2

/-! ## FROM -/

/-- a join begins with a word that no clause begins with -/
theorem WrittenJoin.next {j : Join} (h : WrittenJoin j ts) (spells : Spells (ts ++ us) m r) :
    Next signs afterSources m := by
  cases h with
  | mk hkind word _ _ _ =>
    cases hkind with
    | left first _ => exact next_keyword spells first rfl (by decide) signs
    | inner hf =>
      cases hf with
      | absent => exact next_keyword spells word rfl (by decide) signs
      | present first => exact next_keyword spells first rfl (by decide) signs

/-- the words of the clauses that are behind FROM -/
def clauseWords : List String := ["WHERE", "GROUP", "HAVING", "ORDER"]

/-- **A FROM clause is read**, with all its sources and joins. -/
theorem from_reads {sources : List Source} {joins : List Join} {fs js : List Token} (h : Keyword "FROM" t)
    (hs : WrittenList WrittenSource sources fs) (wfs : ∀ s ∈ sources, s.WellFormed) (hj : WrittenJoins joins js)
    (wfj : ∀ j ∈ joins, j.WellFormed) :
    Reads fromClause (t :: (fs ++ js)) (sources, joins) (Next [';'] clauseWords) := by
  have list : Reads (listOf source) fs sources (Next [';'] afterSources) :=
    separated_reads (fun s ts hs wf => source_reads hs wf)
      (fun us m r spells => next_sign spells List.mem_cons_self afterSources)
      (fun r hr => by
        have stop : Stop [','] [] r := hr.stop rfl rfl (by decide) (List.forall_mem_nil _)
        have either : Next [',', ';'] afterSources r := hr.mono (fun _ => List.mem_cons_of_mem _) fun _ hw => hw
        exact ⟨either, stop.misses_sign (.inr List.mem_cons_self)⟩) hs wfs
  have rest : Reads (many join) js joins (Next [';'] clauseWords) :=
    (joins_reads hj wfj).mono fun r hr => hr.stop rfl rfl (by decide) (by decide)
  have body := (list.require .sources).followed (f := fun sources => mapped (fun joins => (sources, joins)) (many join))
    (rest.mapped (Prod.mk sources)) fun m r spells hr => by
      cases hj with
      | nil => cases spells; exact hr.mono (fun _ hc => hc) (by decide)
      | cons first _ => exact first.next spells
  exact after_keyword h rfl body

/-! ## Queries -/

section

variable {c : Option (Condition Operand)}

/-- WHERE and HAVING -/
theorem conditionClause_reads (h : WrittenClause [word] (Phrase .disjunction n) c ts) (wf : ∀ a ∈ c, a.WellFormed)
    (deep : n ≤ maxNesting) (hw : IsWord word) (complaint : Complaint) (known : ∀ w ∈ words, IsWord w)
    (filled : word.toList ≠ [])
    (other : ∀ w ∈ words, ∀ w' ∈ [word, "OR", "AND", "ESCAPE"], lower w.toList ≠ lower w'.toList) :
    Reads (optional (andRead (keyword word) (require complaint condition))) ts c (Next [';'] words) := by
  refine h.reads hw (fun a ha ws us hws written => ?_) known (List.forall_mem_cons.2 ⟨filled, by decide⟩) other
  cases hws
  exact ((condition_reads written (wf a ha) deep).require complaint).mono fun _ hr => hr.unsigned

end

/-- GROUP BY and ORDER BY -/
theorem listClause_reads {p : Reader α} {words' : List String} (h : WrittenClause [word, "BY"] P o ts)
    (hw : IsWord word) (body : ∀ a ∈ o, ∀ us, P a us → Reads p us a (Stop [','] words')) (by' inside : Complaint)
    (known : ∀ w ∈ words, IsWord w) (filled : ∀ w' ∈ word :: words', w'.toList ≠ [])
    (other : ∀ w ∈ words, ∀ w' ∈ word :: words', lower w.toList ≠ lower w'.toList) :
    Reads (optional (andRead (keyword word) (andRead (require by' (keyword "BY")) (require inside p)))) ts o
      (Next [';'] words) := by
  refine h.reads hw (fun a ha ws us hws written => ?_) known filled other
  cases hws with
  | cons second rest =>
    cases rest
    exact ((keyword_reads second rfl fun _ => True).require by').andRead ((body a ha us written).require inside)
      fun _ _ _ _ => trivial

/-- nothing is left of the text -/
def Ended (s : List Char) : Prop := s = []

theorem end_reads (h : WrittenEnd ts) : ∃ mark, Reads (optional (spaced (sign ';'))) ts mark Ended := by
  cases h with
  | nothing =>
    refine ⟨none, .optional_none fun r hr => ?_⟩
    cases hr
    exact (sign_misses (by simp)).spaced (clear_nil _)
  | semicolon => exact ⟨some (), (sign_reads (t := .semicolon) (c := ';') rfl _).optional_some⟩

theorem WrittenEnd.next (h : WrittenEnd ts) : ∀ m r, Spells ts m r → Ended r → Next [';'] [] m := by
  intro m r spells hr
  cases h with
  | nothing =>
    cases spells
    cases hr
    exact next_nil _ _
  | semicolon => exact next_sign spells List.mem_cons_self _

/-- **A query is read** from its tokens to the end of the text. -/
theorem statement_reads {q : EntitySearch.Statement} {text : List Char} (h : Written n q ts) (wf : q.WellFormed)
    (deep : n ≤ maxNesting) (laid : Laid ts text) : statement text = .ok q [] := by
  obtain ⟨g, s, hg, rfl, gap, spells⟩ := laid.spells
  have front : gaps (g ++ s) = .ok () s := by rw [gaps, dropWhile_front hg gap]
  rw [statement, andRead_ok front]
  cases h with
  | @mk select sources joins filter having groupBy orderBy t ss fs js ws gs hs os es hselect hfrom hsources hjoins
      hfilter hgroup hhaving horder hend =>
    -- what comes behind each clause, from the last one on
    have next₁ := hend.next
    have next₂ := horder.next rfl next₁
    have next₃ := hhaving.next rfl next₂
    have next₄ := hgroup.next rfl next₃
    have next₅ := hfilter.next rfl next₄
    have selects : Reads (optional selectClause) ss select (Stop [','] ["SELECT"]) := by
      cases hselect with
      | absent => exact .optional_none fun r hr => (hr.misses List.mem_cons_self rfl).andRead _
      | present hws written =>
        cases hws
        have read := (select_reads written (wf.select _ rfl)).mono fun r (hr : Stop [','] ["SELECT"] r) =>
          hr.mono (fun _ hc => hc) (List.forall_mem_nil _)
        exact read.optional_some
    have froms := (from_reads hfrom hsources wf.sources.2 hjoins wf.joins).require .fromClause
    have filters : Reads (optional whereClause) ws filter (Next [';'] ["GROUP", "HAVING", "ORDER"]) :=
      conditionClause_reads hfilter wf.filter deep rfl .inWhere (by decide) (by decide) (by decide)
    have groups : Reads (optional groupByClause) gs groupBy (Next [';'] ["HAVING", "ORDER"]) :=
      listClause_reads hgroup rfl (fun paths hp us written => paths_read written (wf.groupBy paths hp)) .byAfterGroup
        .inGroupBy (by decide) (by decide) (by decide)
    have havings : Reads (optional havingClause) hs having (Next [';'] ["ORDER"]) :=
      conditionClause_reads hhaving wf.having deep rfl .inHaving (by decide) (by decide) (by decide)
    have orders : Reads (optional orderByClause) os orderBy (Next [';'] []) :=
      listClause_reads horder rfl (fun items hi us written => orders_read written (wf.orderBy items hi)) .byAfterOrder
        .inOrderBy (by decide) (by decide) (by decide)
    obtain ⟨mark, ends⟩ := end_reads hend
    refine selects.followed ?_ (fun m r spells _ => stop_keyword spells hfrom rfl rfl (by decide)) s []
      spells (show Ended [] from rfl)
    rw [← List.append_assoc, ← List.cons_append]
    refine froms.followed ?_ next₅
    refine filters.followed ?_ next₄
    refine groups.followed ?_ next₃
    refine havings.followed ?_ next₂
    refine orders.followed ?_ next₁
    exact ends.mapped _

/-- **The parser accepts the grammar and rebuilds the tree.** -/
theorem parse_written {q : EntitySearch.Statement} {text : String} (wf : q.WellFormed) (h : Written n q ts)
    (deep : n ≤ 64) (laid : Laid ts text.toList) : parse text = .ok q := by
  rw [parse, statement_reads h wf deep laid]

/-- the hikes with a count out of a range and no length, but for some identifiers -/
def countedHikes : EntitySearch.Statement where
  select := none
  sources := [⟨"Hike", none⟩]
  joins := []
  filter := some (.and [
    .and [.between (.path ⟨["count"], none⟩) (.literal (.number "1")) (.literal (.number "-2.5")) true,
      .isNull (.path ⟨["km"], none⟩) false],
    .not (.like (.path ⟨["id"], none⟩) (.literal (.string "it's")) (some '!') false)])
  groupBy := none
  having := none
  orderBy := some [⟨⟨["count"], none⟩, true⟩]

theorem countedHikes_wellFormed : countedHikes.WellFormed where
  select := by simp [countedHikes]
  sources := by
    have name : IsEntityName "Hike" := ⟨⟨["Hike"], List.cons_ne_nil _ _, by decide, rfl⟩, by decide⟩
    exact ⟨List.cons_ne_nil _ _, List.forall_mem_singleton.2 ⟨name, by simp⟩⟩
  joins := by simp [countedHikes]
  filter := by
    have count : IsPath ["count"] := ⟨by decide, by decide, List.forall_mem_nil _⟩
    have km : IsPath ["km"] := ⟨by decide, by decide, List.forall_mem_nil _⟩
    have id : IsPath ["id"] := ⟨by decide, by decide, List.forall_mem_nil _⟩
    have one : IsNumeral "1".toList := .positive (.whole ⟨by decide, List.all_eq_true.1 rfl⟩)
    have low : IsNumeral "-2.5".toList :=
      .negative (.decimal (d := ['2']) (e := ['5']) ⟨List.cons_ne_nil _ _, List.all_eq_true.1 rfl⟩
        ⟨List.cons_ne_nil _ _, List.all_eq_true.1 rfl⟩)
    rintro c ⟨⟩
    exact ⟨by decide, ⟨by decide, ⟨⟨count, by simp⟩, one, low⟩, ⟨km, by simp⟩, trivial⟩, ⟨⟨id, by simp⟩, trivial⟩,
      trivial⟩
  groupBy := by simp [countedHikes]
  having := by simp [countedHikes]
  orderBy := by
    rintro items ⟨⟩
    refine ⟨List.cons_ne_nil _ _, List.forall_mem_singleton.2 ⟨⟨by decide, by decide, List.forall_mem_nil _⟩, ?_⟩⟩
    simp

/-- with parentheses around the inner AND, the AND of a range, and a property by the name of an aggregate -/
def countedText : String :=
  " from Hike wHERE ( count not BETWEEN 1 And -2.5 AND km is Null ) and NOT id LiKe 'it''s' escape '!' order By count ;"

/-- a token of a word, a name or a number -/
def token (c : Char) (rest : String) (h : isGap c = false) : Token := ⟨c, rest.toList, h⟩

theorem countedHikes_written : ∃ ts, Written 1 countedHikes ts ∧ Laid ts countedText.toList := by
  have count : WrittenPath ⟨["count"], none⟩ [token 'c' "ount" rfl] := .plain rfl
  have range : WrittenTest
      (.between (.path ⟨["count"], none⟩) (.literal (.number "1")) (.literal (.number "-2.5")) true) _ :=
    .between (.path count) (.present (t := token 'n' "ot" rfl) rfl) (t := token 'B' "ETWEEN" rfl) rfl
      (.number (t := token '1' "" rfl) rfl) (u := token 'A' "nd" rfl) rfl (.number (t := token '-' "2.5" rfl) rfl)
  have unrated : WrittenTest (.isNull (.path ⟨["km"], none⟩) false) _ :=
    .isNull (.path (.plain (t := token 'k' "m" rfl) rfl)) (t := token 'i' "s" rfl) rfl .absent
      (u := token 'N' "ull" rfl) rfl
  have named : WrittenTest (.like (.path ⟨["id"], none⟩) (.literal (.string "it's")) (some '!') false) _ :=
    .like (.path (.plain (t := token 'i' "d" rfl) rfl)) .absent (t := token 'L' "iKe" rfl) rfl (.string "it's")
      (.some '!' (t := token 'e' "scape" rfl) rfl)
  have inner : Phrase .negation 1 (.and [_, _]) _ :=
    .parentheses (.conjunction (.and (.cons (.test range) (t := token 'A' "ND" rfl) rfl (.one (.test unrated)))))
  have other : Phrase .negation 1 (.not _) _ := .not (t := token 'N' "OT" rfl) rfl (.test named)
  have filter : Phrase .disjunction 1 (.and [_, _]) _ :=
    .conjunction (.and (.cons inner (t := token 'a' "nd" rfl) rfl (.one other)))
  have written : Written 1 countedHikes _ := .mk .absent (t := token 'f' "rom" rfl) rfl
    (.one (.bare (t := token 'H' "ike" rfl) rfl)) .nil
    (.present (.cons (b := token 'w' "HERE" rfl) rfl .nil) filter) .absent .absent
    (.present (.cons (b := token 'o' "rder" rfl) rfl (.cons (b := token 'B' "y" rfl) rfl .nil))
      (.one (.ascending count .absent))) .semicolon
  refine ⟨_, written, ?_⟩
  convert laid_spaced _ using 1
  decide +kernel

/-- the text is parsed, its inner AND apart from the outer one -/
theorem parse_countedText : countedHikes.WellFormed ∧ (∃ ts, Written 1 countedHikes ts ∧ Laid ts countedText.toList) ∧
    1 ≤ 64 ∧ parse countedText = .ok countedHikes := by
  obtain ⟨ts, written, laid⟩ := countedHikes_written
  exact ⟨countedHikes_wellFormed, ⟨ts, written, laid⟩, by decide,
    parse_written countedHikes_wellFormed written (by decide) laid⟩

end EntitySearch.Query
