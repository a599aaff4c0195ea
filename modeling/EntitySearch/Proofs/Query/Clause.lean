/-
The clauses of a query are read as they are written.

What follows a clause is known: `Next` says that the query ends there, or that one of certain signs or words comes. An
alias may be left out, and what comes in its place is then no alias because the words of the clauses are reserved
(`asAlias_misses`). From the items, sources, joins and orders come the clauses, which are read when they are there and
are missed when they are left out (`WrittenClause.reads`).
-/
import EntitySearch.Proofs.Query.Condition

namespace EntitySearch.Query

open Text

variable {α : Type} {t : Token} {ts us flag : List Token} {s m r between : List Char} {word : String}
  {signs signs' : List Char} {words words' : List String}

/-! ## What comes next -/

/-- the end, one of the signs, or one of the words -/
structure Next (signs : List Char) (words : List String) (s : List Char) : Prop where
  gap : Clear isGap s
  known : s = [] ∨ (∃ c ∈ signs, s.head? = some c) ∨ ∃ w ∈ words, lead s = lower w.toList

theorem Next.mono (h : Next signs words s) (hs : ∀ c ∈ signs, c ∈ signs') (hw : ∀ w ∈ words, w ∈ words') :
    Next signs' words' s := by
  refine ⟨h.gap, ?_⟩
  rcases h.known with rfl | ⟨c, hc, hs'⟩ | ⟨w, hmem, hlead⟩
  · exact .inl rfl
  · exact .inr (.inl ⟨c, hs c hc, hs'⟩)
  · exact .inr (.inr ⟨w, hw w hmem, hlead⟩)

theorem next_nil (signs : List Char) (words : List String) : Next signs words [] := ⟨clear_nil _, .inl rfl⟩

theorem next_sign (spells : Spells (t :: ts) m r) (h : t.first ∈ signs) (words : List String) : Next signs words m := by
  exact ⟨spells.clear, .inr (.inl ⟨t.first, h, spells.head⟩)⟩

theorem next_keyword (spells : Spells (t :: ts) m r) (h : Keyword word t) (hw : IsWord word) (hmem : word ∈ words)
    (signs : List Char) : Next signs words m := by
  exact ⟨spells.clear, .inr (.inr ⟨word, hmem, h.lead hw spells⟩)⟩

/-- a word at the front begins with a letter -/
theorem isAlpha_of_lead (h : lead s = lower word.toList) (hw : IsWord word) :
    ∃ c, s.head? = some c ∧ c.isAlpha = true := by
  cases s with
  | nil =>
    have : word.toList = [] := List.map_eq_nil_iff.1 h.symm
    simp [IsWord, this] at hw
  | cons c s =>
    refine ⟨c, rfl, ?_⟩
    by_contra hc
    exact lead_ne rfl (Bool.eq_false_of_not_eq_true hc) hw h

/-- characters that go on nothing, are in no name, and are none of the others -/
def GoOnNone (signs others : List Char) : Prop :=
  (signs.all fun c => !continues c && !isNameChar c && !others.contains c) = true

theorem GoOnNone.of_mem (h : GoOnNone signs signs') {c : Char} (hc : c ∈ signs) :
    continues c = false ∧ isNameChar c = false ∧ c ∉ signs' := by
  have := List.all_eq_true.1 h c hc
  simpa [and_assoc] using this

/-- what comes next stops whatever waits for something else -/
theorem Next.stop (h : Next signs words s)
    (hs : GoOnNone signs signs') (hsigns : AreSigns signs') (hw : ∀ w ∈ words, IsWord w)
    (hwords : ∀ w' ∈ words', w'.toList ≠ [] ∧ ∀ w ∈ words, lower w.toList ≠ lower w'.toList) :
    Stop signs' words' s := by
  have filled : ∀ w' ∈ words', w'.toList ≠ [] := fun w' h' => (hwords w' h').1
  rcases h.known with rfl | ⟨c, hc, hhead⟩ | ⟨w, hmem, hlead⟩
  · exact stop_nil signs' filled
  · obtain ⟨rest, rfl⟩ := List.head?_eq_some_iff.1 hhead
    obtain ⟨goes, named, other⟩ := hs.of_mem hc
    have no_word : lead (c :: rest) = [] := lead_clear (clear_cons.2 named)
    refine ⟨h.gap, ?_, no_word ▸ lower_ne_nil filled⟩
    rintro d ⟨⟩
    exact ⟨goes, other⟩
  · obtain ⟨c, hhead, alpha⟩ := isAlpha_of_lead hlead (hw w hmem)
    refine ⟨h.gap, ?_, fun w' h' => hlead ▸ (hwords w' h').2 w hmem⟩
    intro d hd
    cases hhead.symm.trans hd
    have starts := startsName_of_isAlpha alpha
    exact ⟨continues_of_startsName starts, hsigns.not_mem starts⟩

/-! ## SELECT -/

/-- what holds of a text because an element stands at its front holds of the text of a list -/
theorem WrittenList.front {P : α → List Token → Prop} {as : List α} {Q : List Char → Prop} (h : WrittenList P as ts)
    (each : ∀ a ∈ as, ∀ ts us, P a ts → Spells (ts ++ us) s r → Q s) (spells : Spells (ts ++ us) s r) : Q s := by
  cases h with
  | one h => exact each _ List.mem_cons_self _ _ h spells
  | cons h _ =>
    rw [List.append_assoc] at spells
    exact each _ List.mem_cons_self _ _ h spells

theorem item_reads {i : SelectItem} (h : WrittenItem i ts) (wf : i.WellFormed) :
    Reads selectItem ts i (Stop [] []) := by
  cases h with
  | path written =>
    refine .skip (fun s r spells hr => aggregateExpr_misses_path written wf spells hr) ?_
    exact (path_reads written wf).mapped _
  | aggregate written => exact ((aggregate_reads written wf _).mapped _).either_left _

/-- an item does not begin with DISTINCT -/
theorem WrittenItem.stop {i : SelectItem} (h : WrittenItem i ts) (wf : i.WellFormed) (spells : Spells (ts ++ us) m r) :
    Stop [] ["DISTINCT"] m := by
  cases h with
  | path written => exact written.stop wf spells rfl (by decide)
  | aggregate written =>
    cases written with
    | @mk function distinct path t flag ts word _ _ =>
      cases function <;> exact stop_keyword spells word rfl rfl (by decide)

/-- **A SELECT clause is read**, with all its items. -/
theorem select_reads {select : Select} (h : WrittenSelect select ts)
    (wf : ListWellFormed SelectItem.WellFormed select.items) : Reads selectClause ts select (Stop [','] []) := by
  cases h with
  | @mk distinct items t flag ts word hf hitems =>
    have items' := list_reads (fun i ts hi wf => item_reads hi wf) (List.forall_mem_nil _) hitems wf.2
    have body := (items'.require .selectItems).mapped (Select.mk distinct)
    have distinctly := (flag_reads hf rfl (List.mem_singleton_self _)).followed
      (f := fun distinct => mapped (Select.mk distinct) (require .selectItems (listOf selectItem))) body
      fun m r spells _ => hitems.front (fun i hi ts us written spells => written.stop (wf.2 i hi) spells)
        spells.append_nil
    exact after_keyword word rfl distinctly

/-! ## FROM and joins -/

section

variable {a e : String}

/-- the words that may follow the sources of a query -/
def afterSources : List String := ["JOIN", "LEFT", "INNER", "WHERE", "GROUP", "HAVING", "ORDER"]

/-- an alias is a path of one name -/
theorem IsAlias.path (h : IsAlias a) : IsPath [a] := ⟨h.1, h.2, List.forall_mem_nil _⟩

theorem plain_dotted_one (h : Plain a t) : Plain (dotted [a]) t := by
  simpa [dotted] using h

theorem aliasName_reads (h : IsAlias a) (plain : Plain a t) (stop : List Char → Prop) :
    Reads aliasName [t] a stop := by
  intro s r spells _
  have gap := spells.clear
  obtain ⟨between, rfl, behind⟩ := spells.single
  have ends : EndsWord t := (dotted_token (by simpa using h.1) (plain_dotted_one plain)).2.2
  have read : name (t.chars ++ between) = .ok a between := by
    rw [show t.chars = a.toList from plain]
    exact name_front h.1 (behind.apart ends)
  rw [aliasName, spaced_clear gap, read]
  simp only [Outcome.andThen, behind.dropWhile, h.2, Bool.false_eq_true, if_false]

/-- an alias, or AS before it, stops whatever waits for another reserved word -/
theorem WrittenAlias.stop (h : WrittenAlias a ts) (wf : IsAlias a) (spells : Spells (ts ++ us) m r) :
    Stop [] [] m := by
  cases h with
  | mk hf plain =>
    cases hf with
    | absent => exact stop_path wf.path (plain_dotted_one plain) spells rfl (List.forall_mem_nil _)
    | present word => exact stop_keyword spells word rfl rfl (List.forall_mem_nil _)

theorem asAlias_reads (h : WrittenAlias a ts) (wf : IsAlias a) (stop : List Char → Prop) :
    Reads asAlias ts a stop := by
  cases h with
  | mk hf plain =>
    exact (optional_keyword_reads hf rfl (List.mem_singleton_self _)).andRead
      (aliasName_reads wf plain stop) fun m r spells _ =>
        stop_path wf.path (plain_dotted_one plain) spells rfl (by decide)

/-- a word that is reserved is no alias -/
theorem aliasName_misses_reserved (gap : Clear isGap s) (h : lead s = lower word.toList) (hw : word ∈ reservedWords) :
    Misses aliasName s := by
  cases s with
  | nil => exact ⟨_, rfl⟩
  | cons c s =>
    cases hc : startsName c with
    | false =>
      have no_name : Misses name (c :: s) := ⟨_, by simp only [name, hc]; rfl⟩
      obtain ⟨fault, missed⟩ := no_name.spaced gap
      exact ⟨fault, by rw [aliasName, missed]; rfl⟩
    | true =>
      have taken : (c :: s).takeWhile isNameChar = c :: s.takeWhile isNameChar := by
        simp [isNameChar_of_startsName hc]
      have reserved : isReserved (String.ofList (c :: s.takeWhile isNameChar)) = true := by
        refine List.any_eq_true.2 ⟨word, hw, ?_⟩
        rw [sameWord, String.toList_ofList, ← taken, ← h]
        exact beq_self_eq_true _
      exact ⟨_, by simp only [aliasName, spaced_clear gap, name, hc, if_true, Outcome.andThen, reserved]; rfl⟩

/-- a sign is no alias, and neither is the end -/
theorem aliasName_misses (gap : Clear isGap s) (h : ∀ c, s.head? = some c → startsName c = false) :
    Misses aliasName s := by
  have no_name : Misses name s := by
    cases s with
    | nil => exact ⟨_, rfl⟩
    | cons c s => exact ⟨_, by simp only [name, h c rfl]; rfl⟩
  obtain ⟨fault, missed⟩ := no_name.spaced gap
  exact ⟨fault, by rw [aliasName, missed]; rfl⟩

theorem asAlias_misses (h : Next [',', ';'] afterSources s) : Misses asAlias s := by
  have signs : AreSigns [',', ';'] := rfl
  have words : ∀ w ∈ afterSources, w ∈ reservedWords := by decide
  have stop : Stop [] ["AS"] s := h.stop rfl rfl (by decide) (by decide)
  have no_as := optional_misses (stop.misses (List.mem_singleton_self _) rfl)
  refine Misses.followed_ok no_as ?_
  rcases h.known with rfl | ⟨c, hc, hhead⟩ | ⟨w, hmem, hlead⟩
  · exact aliasName_misses h.gap (by simp)
  · refine aliasName_misses h.gap fun d hd => ?_
    cases hhead.symm.trans hd
    by_contra hn
    exact signs.not_mem (Bool.eq_true_of_not_eq_false hn) hc
  · exact aliasName_misses_reserved h.gap hlead (words w hmem)

theorem entityName_reads (h : IsEntityName e) (plain : Plain e t) :
    Reads entityName [t] e fun m => m.head? ≠ some '.' := by
  intro s r spells point
  have gap := spells.clear
  obtain ⟨between, rfl, behind⟩ := spells.single
  obtain ⟨⟨names, filled, identifiers, rfl⟩, reserved⟩ := h
  obtain ⟨first, rest, rfl⟩ := List.exists_cons_of_ne_nil filled
  obtain ⟨chars, -, ends⟩ := dotted_token identifiers plain
  obtain ⟨hfirst, hrest⟩ := List.forall_mem_cons.1 identifiers
  have apart := behind.apart ends
  have front : name (first.toList ++ (dottedTail rest ++ between)) = .ok first (dottedTail rest ++ between) :=
    name_front hfirst (clear_dottedTail rfl apart)
  have read : dottedNames (t.chars ++ between) = .ok (first :: rest) between := by
    rw [chars, List.append_assoc, dottedNames, followed_ok front,
      mapped_ok (many_names hrest apart (behind.head_ne rfl point))]
  rw [entityName, spaced_clear gap, mapped_ok read]
  simp only [Outcome.andThen, behind.dropWhile, reserved, Bool.false_eq_true, if_false]

theorem source_reads {source : Source} (h : WrittenSource source ts) (wf : source.WellFormed) :
    Reads Query.source ts source (Next [',', ';'] afterSources) := by
  cases h with
  | @bare e t plain =>
    have unnamed : Reads (optional asAlias) [] none (Next [',', ';'] afterSources) :=
      .optional_none fun r hr => asAlias_misses hr
    refine (entityName_reads wf.1 plain).followed_nil (unnamed.mapped _) fun r hr => ?_
    have stop : Stop [] [] r := hr.stop rfl rfl (by decide) (List.forall_mem_nil _)
    exact stop.head_ne (.inl rfl)
  | @named e a t ts plain written =>
    have alias' := (asAlias_reads written (wf.2 a rfl) (Next [',', ';'] afterSources)).optional_some
    exact (entityName_reads wf.1 plain).followed (alias'.mapped (Source.mk e)) fun m r spells _ =>
      (written.stop (wf.2 a rfl) spells.append_nil).head_ne (.inl rfl)

theorem joinKind_misses (h : Stop [] ["LEFT", "INNER"] s) : Misses joinKind s :=
  (((h.misses (by decide) (by rfl)).andRead _).mapped _).either ((h.misses (by decide) (by rfl)).mapped _)

/-- the word before JOIN, if there is one -/
theorem joinKind_reads {outer : Bool} (h : WrittenKind outer ts) : ∃ kind : Option Bool, kind.getD false = outer ∧
    Reads (optional joinKind) ts kind (Stop [] ["LEFT", "OUTER", "INNER"]) := by
  cases h with
  | left word hf =>
    have outerWord := optional_keyword_reads hf rfl (show "OUTER" ∈ ["LEFT", "OUTER", "INNER"] by decide)
    have left := (after_keyword word rfl outerWord).mapped fun _ => true
    exact ⟨some true, rfl, (left.either_left _).optional_some⟩
  | inner hf =>
    cases hf with
    | absent =>
      exact ⟨none, rfl, .optional_none fun r hr => joinKind_misses (hr.mono (List.forall_mem_nil _) (by decide))⟩
    | present word =>
      have inner := (keyword_reads word rfl (Stop [] ["LEFT", "OUTER", "INNER"])).mapped fun _ => false
      refine ⟨some false, rfl, .optional_some (.skip (fun s r spells _ => ?_) inner)⟩
      exact (word.misses rfl spells (by rfl) (by decide)).andRead _

/-- **A join is read**, whatever follows. -/
theorem join_reads {j : Join} (h : WrittenJoin j ts) (wf : j.WellFormed) (stop : List Char → Prop) :
    Reads join ts j stop := by
  cases h with
  | @mk outer fetch path name t kind flag ps as hkind word hf hp ha =>
    obtain ⟨o, rfl, first⟩ := joinKind_reads hkind
    have named := ((asAlias_reads ha wf.2 stop).require .joinAlias).mapped (Join.mk (o.getD false) fetch path)
    have pathed := ((path_reads hp wf.1).require .joinPath).followed (f := fun path =>
      mapped (Join.mk (o.getD false) fetch path) (require .joinAlias asAlias)) named fun m r spells _ =>
        ha.stop wf.2 spells.append_nil
    have fetched := (flag_reads hf rfl (List.mem_singleton_self _)).followed (f := fun fetch =>
      followed (require .joinPath pathExpr) fun path =>
        mapped (Join.mk (o.getD false) fetch path) (require .joinAlias asAlias)) pathed fun m r spells _ =>
          hp.stop wf.1 spells rfl (by decide)
    exact first.followed (after_keyword word rfl fetched) fun m r spells _ =>
      stop_keyword spells word rfl rfl (by decide)

theorem join_misses (h : Stop [] ["JOIN", "LEFT", "INNER"] s) : Misses join s := by
  have no_kind := optional_misses (joinKind_misses (h.mono (List.forall_mem_nil _) (by decide)))
  exact Misses.followed_ok no_kind ((h.misses List.mem_cons_self rfl).andRead _)

theorem WrittenJoin.cons {j : Join} (h : WrittenJoin j ts) : ∃ t us, ts = t :: us := by
  cases h with
  | mk hkind _ _ _ _ =>
    cases hkind with
    | left _ _ => exact ⟨_, _, rfl⟩
    | inner hf => cases hf <;> exact ⟨_, _, rfl⟩

theorem joins_reads {js : List Join} (h : WrittenJoins js ts) (wf : ∀ j ∈ js, j.WellFormed) :
    Reads (many join) ts js (Stop [] ["JOIN", "LEFT", "INNER"]) := by
  induction h with
  | nil => exact .many_nil fun r hr => join_misses hr
  | cons hj _ ih =>
    have first := join_reads hj (wf _ List.mem_cons_self) fun _ => True
    obtain ⟨t, us, rfl⟩ := hj.cons
    exact first.many_cons (ih fun j hj => wf j (List.mem_cons_of_mem _ hj)) fun _ _ _ _ => trivial

end

end EntitySearch.Query
