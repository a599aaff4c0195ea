/-
Where readers stop, and the words, signs and lists of the grammar.

`Stop` says what must not come next for most readers: nothing that goes on a literal or a path, and none of certain
signs and words. A word is told by the run of name characters at the front, its case left aside, so it is read where it
stands (`keyword_reads`) and missed where another run does (`keyword_misses`). A list is read when its elements are,
which stop before commas as well as at the end (`separated_reads`).
-/
import EntitySearch.Proofs.Query.Reading

namespace EntitySearch.Query

open Text

variable {α β : Type}

/-! ## What comes next -/

/-- a character that would go on a number, a text, a path or the name of an aggregate -/
def continues (c : Char) : Bool := c.isDigit || c == '\'' || c == '.' || c == '[' || c == '('

/-- nothing is gone on, and neither one of the signs nor one of the words comes next -/
structure Stop (signs : List Char) (words : List String) (s : List Char) : Prop where
  gap : Clear isGap s
  sign : ∀ c, s.head? = some c → continues c = false ∧ c ∉ signs
  word : ∀ w ∈ words, lead s ≠ lower w.toList

variable {signs signs' : List Char} {words words' : List String} {s m r between : List Char} {t : Token}
  {ts : List Token} {word : String} {stop : List Char → Prop}

theorem Stop.mono (h : Stop signs words s) (hs : ∀ c ∈ signs', c ∈ signs) (hw : ∀ w ∈ words', w ∈ words) :
    Stop signs' words' s := by
  refine ⟨h.gap, ?_, fun w hmem => h.word w (hw w hmem)⟩
  intro c hc
  obtain ⟨plain, other⟩ := h.sign c hc
  exact ⟨plain, fun hmem => other (hs c hmem)⟩

theorem Stop.unsigned (h : Stop signs words s) : Stop [] words s :=
  h.mono (List.forall_mem_nil _) fun _ hw => hw

/-- the weakest of them: nothing is gone on -/
theorem Stop.plain (h : Stop signs words s) : Stop [] [] s :=
  h.mono (List.forall_mem_nil _) (List.forall_mem_nil _)

theorem lower_ne_nil (hw : ∀ w ∈ words, w.toList ≠ []) : ∀ w ∈ words, [] ≠ lower w.toList := by
  intro w hmem heq
  exact hw w hmem (List.map_eq_nil_iff.1 heq.symm)

theorem stop_nil (signs : List Char) (hw : ∀ w ∈ words, w.toList ≠ []) : Stop signs words [] :=
  ⟨clear_nil _, fun c hc => by simp at hc, lower_ne_nil hw⟩

/-- a sign stops whatever it does not go on -/
theorem stop_sign (hs : Spells (t :: ts) m r) (hn : isNameChar t.first = false) (hc : continues t.first = false)
    (hsigns : t.first ∉ signs) (hw : ∀ w ∈ words, w.toList ≠ []) : Stop signs words m := by
  obtain ⟨between, n, rfl, -, -⟩ := Spells.cons_iff.1 hs
  have no_word : lead (t.chars ++ between) = [] := lead_clear (clear_cons.2 hn)
  refine ⟨hs.clear, ?_, no_word ▸ lower_ne_nil hw⟩
  rintro c ⟨⟩
  exact ⟨hc, hsigns⟩

/-! ## Words of the grammar -/

/-- words of the grammar are letters only -/
def IsWord (word : String) : Prop := ((lower word.toList).all Char.isAlpha && !word.toList.isEmpty) = true

instance (word : String) : Decidable (IsWord word) := inferInstanceAs (Decidable (_ = true))

theorem isAlpha_of_lower {t : List Char} (h : lower t = lower word.toList) (hw : IsWord word) :
    ∀ c ∈ t, c.isAlpha = true := by
  intro c hc
  simp only [IsWord, Bool.and_eq_true, List.all_eq_true] at hw
  rw [← Char.isAlpha_toLower_eq_isAlpha]
  exact hw.1 _ (h ▸ List.mem_map_of_mem hc)

theorem isNameChar_of_lower {t : List Char} (h : lower t = lower word.toList) (hw : IsWord word) :
    ∀ c ∈ t, isNameChar c = true := by
  intro c hc
  exact isNameChar_of_isAlpha (isAlpha_of_lower h hw c hc)

/-- the last character may stand in a name -/
def EndsInName (l : List Char) : Prop := ∃ c, l.getLast? = some c ∧ isNameChar c = true

theorem EndsInName.append {l : List Char} (h : EndsInName l) (front : List Char) : EndsInName (front ++ l) := by
  obtain ⟨c, hl, hc⟩ := h
  exact ⟨c, by rw [List.getLast?_append, hl, Option.some_or], hc⟩

theorem endsInName_of_all {l : List Char} (hl : l ≠ []) (h : ∀ c ∈ l, isNameChar c = true) : EndsInName l := by
  obtain ⟨c, hc⟩ := Option.isSome_iff_exists.1 (List.getLast?_isSome.2 hl)
  exact ⟨c, hc, h c (List.mem_of_getLast? hc)⟩

/-- a token of characters of names ends in one -/
theorem endsWord_of_isNameChar (h : ∀ c ∈ t.chars, isNameChar c = true) : EndsWord t := by
  refine ⟨?_, endsInName_of_all (List.cons_ne_nil _ _) h⟩
  intro hq
  have := h t.first List.mem_cons_self
  rw [hq] at this
  exact absurd this (by decide)

theorem Keyword.endsWord (h : Keyword word t) (hw : IsWord word) : EndsWord t :=
  endsWord_of_isNameChar (isNameChar_of_lower h hw)

theorem Keyword.lead (h : Keyword word t) (hw : IsWord word) (spells : Spells (t :: ts) s r) :
    lead s = lower word.toList := by
  obtain ⟨between, m, rfl, behind, -⟩ := Spells.cons_iff.1 spells
  rw [lead_front (isNameChar_of_lower h hw) (behind.apart (h.endsWord hw))]
  exact h

/-- what begins a name goes on nothing -/
theorem continues_of_startsName {c : Char} (h : startsName c = true) : continues c = false := by
  simp only [continues, isDigit_of_startsName h, Bool.false_or, Bool.or_eq_false_iff, beq_eq_false_iff_ne]
  refine ⟨⟨⟨?_, ?_⟩, ?_⟩, ?_⟩ <;> rintro rfl <;> exact absurd h (by decide)

/-- characters that begin no name -/
def AreSigns (signs : List Char) : Prop := (signs.all fun c => !startsName c) = true

theorem AreSigns.not_mem (h : AreSigns signs) {c : Char} (hc : startsName c = true) : c ∉ signs := by
  intro hmem
  have other := List.all_eq_true.1 h c hmem
  rw [hc] at other
  cases other

/-- what begins a name stops whatever does not wait for the word at the front -/
theorem stop_name (hs : Spells (t :: ts) m r) (starts : startsName t.first = true) (hsigns : AreSigns signs)
    (hwords : ∀ w ∈ words, lead m ≠ lower w.toList) : Stop signs words m := by
  refine ⟨hs.clear, ?_, hwords⟩
  intro c hc
  cases hs.head.symm.trans hc
  exact ⟨continues_of_startsName starts, hsigns.not_mem starts⟩

/-- a word stops whatever does not wait for it -/
theorem stop_keyword (hs : Spells (t :: ts) m r) (h : Keyword word t) (hw : IsWord word)
    (hsigns : AreSigns signs) (hwords : ∀ w ∈ words, lower word.toList ≠ lower w.toList) :
    Stop signs words m := by
  have starts := startsName_of_isAlpha (isAlpha_of_lower h hw t.first List.mem_cons_self)
  exact stop_name hs starts hsigns ((h.lead hw hs).symm ▸ hwords)

/-- what `dropWord` drops is the word -/
theorem dropWord_some {word s r : List Char} (h : dropWord word s = some r) :
    ∃ t, s = t ++ r ∧ lower t = lower word := by
  induction word generalizing s with
  | nil =>
    simp only [dropWord, Option.some.injEq] at h
    exact ⟨[], by simp [h], rfl⟩
  | cons w word ih =>
    cases s with
    | nil => simp [dropWord] at h
    | cons c s =>
      simp only [dropWord] at h
      split at h
      · rename_i heq
        obtain ⟨t, rfl, ht⟩ := ih h
        exact ⟨c :: t, rfl, by simp only [lower, List.map_cons] at ht ⊢; rw [ht, eq_of_beq heq]⟩
      · cases h

theorem dropWord_front {word t : List Char} (h : lower t = lower word) (r : List Char) :
    dropWord word (t ++ r) = some r := by
  induction word generalizing t with
  | nil => rw [List.map_eq_nil_iff.1 h]; rfl
  | cons w word ih =>
    cases t with
    | nil => cases h
    | cons c t =>
      simp only [lower, List.map_cons, List.cons.injEq] at h
      simp only [List.cons_append, dropWord, h.1, beq_self_eq_true, if_true]
      exact ih h.2

/-- what a keyword does behind the gaps -/
def wordFront (word : String) : Reader Unit := fun s =>
  match dropWord word.toList s with
  | none => .miss ⟨s, []⟩
  | some rest => if rest.head?.any isNameChar then .miss ⟨rest, []⟩ else .ok () rest

theorem keyword_eq (word : String) : keyword word = spaced (wordFront word) := rfl

theorem wordFront_misses (hw : IsWord word) (h : lead s ≠ lower word.toList) : Misses (wordFront word) s := by
  unfold wordFront
  cases hd : dropWord word.toList s with
  | none => exact ⟨_, by simp only [hd]; rfl⟩
  | some rest =>
    by_cases hr : rest.head?.any isNameChar = true
    · exact ⟨_, by simp only [hd, hr]; rfl⟩
    · obtain ⟨t, rfl, ht⟩ := dropWord_some hd
      have clear : Clear isNameChar rest := fun c hc => by simpa [hc] using hr
      exact absurd ((lead_front (isNameChar_of_lower ht hw) clear).trans ht) h

/-- a word that is not at the front is missed -/
theorem keyword_misses (gap : Clear isGap s) (hw : IsWord word) (h : lead s ≠ lower word.toList) :
    Misses (keyword word) s :=
  Misses.spaced (wordFront_misses hw h) gap

theorem Stop.misses (h : Stop signs words s) (hmem : word ∈ words) (hw : IsWord word) : Misses (keyword word) s :=
  keyword_misses h.gap hw (h.word word hmem)

/-- a word is read with the gaps behind it -/
theorem keyword_reads (h : Keyword word t) (hw : IsWord word) (stop : List Char → Prop) :
    Reads (keyword word) [t] () stop := by
  rw [keyword_eq]
  refine .of_token fun between r behind _ => ?_
  have apart := (behind.apart (h.endsWord hw)).any
  simp only [wordFront, dropWord_front h, apart, Bool.false_eq_true, if_false]

/-- a word, and then what belongs to it -/
theorem after_keyword {q : Reader α} {a : α} (h : Keyword word t) (hw : IsWord word) (hq : Reads q ts a stop) :
    Reads (andRead (keyword word) q) (t :: ts) a stop :=
  (keyword_reads h hw fun _ => True).andRead hq fun _ _ _ _ => trivial

/-- a word that may be left out is read, and so is its absence -/
theorem optional_keyword_reads {b : Bool} {ts : List Token} (h : WrittenFlag word b ts) (hw : IsWord word)
    (hmem : word ∈ words) : Reads (optional (keyword word)) ts (if b then some () else none) (Stop [] words) := by
  cases h with
  | absent => exact .optional_none fun r hr => hr.misses hmem hw
  | present h => exact (keyword_reads h hw _).optional_some

/-- a word that says yes by being there is read -/
theorem flag_reads {b : Bool} {ts : List Token} (h : WrittenFlag word b ts) (hw : IsWord word) (hmem : word ∈ words) :
    Reads (present (keyword word)) ts b (Stop [] words) := by
  have read := (optional_keyword_reads h hw hmem).mapped Option.isSome
  cases b <;> exact read

/-! ## Signs -/

/-- a sign is read with the gaps behind it -/
theorem sign_reads {c : Char} (h : t.chars = [c]) (stop : List Char → Prop) : Reads (spaced (sign c)) [t] () stop := by
  refine .of_token fun between r _ _ => ?_
  rw [h]
  simp only [List.cons_append, List.nil_append, sign, beq_self_eq_true, if_true]

/-- a sign, and then what belongs to it -/
theorem after_sign {c : Char} {q : Reader α} {a : α} (h : t.chars = [c]) (hq : Reads q ts a stop) :
    Reads (andRead (spaced (sign c)) q) (t :: ts) a stop :=
  (sign_reads h fun _ => True).andRead hq fun _ _ _ _ => trivial

/-- what a sign stops, and then the sign -/
theorem before_sign {p : Reader α} {closer : Reader Unit} {a : α} (hp : Reads p ts a (Stop signs words))
    (hq : Reads closer [t] () stop) (hn : isNameChar t.first = false) (hc : continues t.first = false)
    (hsigns : t.first ∉ signs) (hw : ∀ w ∈ words, w.toList ≠ []) :
    Reads (thenDrop p closer) (ts ++ [t]) a stop :=
  hp.thenDrop hq fun _ _ spells _ => stop_sign spells hn hc hsigns hw

theorem sign_misses {c : Char} (h : s.head? ≠ some c) : Misses (sign c) s := by
  cases s with
  | nil => exact ⟨_, rfl⟩
  | cons d s =>
    have other : (d == c) = false := beq_eq_false_iff_ne.2 fun heq => h (congrArg some heq)
    exact ⟨_, by simp only [sign, other]; rfl⟩

theorem Stop.head_ne (h : Stop signs words s) {c : Char} (hc : continues c = true ∨ c ∈ signs) : s.head? ≠ some c := by
  intro hs
  obtain ⟨hn, hsign⟩ := h.sign c hs
  rcases hc with hc | hc
  · rw [hn] at hc
    cases hc
  · exact hsign hc

theorem Stop.misses_sign (h : Stop signs words s) {c : Char} (hc : continues c = true ∨ c ∈ signs) :
    Misses (spaced (Query.sign c)) s :=
  (sign_misses (h.head_ne hc)).spaced h.gap

/-! ## Lists -/

theorem separatedTail_misses {separator : Reader β} {p : Reader α} (h : Misses separator s) :
    separatedTail separator p s = .ok [] s := by
  obtain ⟨fault, h⟩ := h
  rw [separatedTail, h]

theorem separatedTail_ok {separator : Reader β} {p : Reader α} {b : β} {a : α} {m : List Char}
    (hs : separator s = .ok b m) (hp : p m = .ok a r) (shorter : r.length < s.length) :
    separatedTail separator p s = (separatedTail separator p r).map (a :: ·) := by
  rw [separatedTail, hs]
  simp only [hp, shorter, dif_pos]

section

variable {P : α → List Token → Prop} {W : α → Prop} {p : Reader α} {stop' : List Char → Prop} {as : List α}
  (each : ∀ a ts, P a ts → W a → Reads p ts a stop')
  (comma : ∀ us m r, Spells (.comma :: us) m r → stop' m)
  (last : ∀ r, stop r → stop' r ∧ Misses (spaced (sign ',')) r)

include each comma last

theorem listTail_reads (h : WrittenList P as ts) (wf : ∀ a ∈ as, W a) :
    Reads (separatedTail (spaced (sign ',')) p) (.comma :: ts) as stop := by
  induction h with
  | one h =>
    intro s r spells hr
    obtain ⟨m, first, second⟩ := spells.split
    obtain ⟨next, misses⟩ := last r hr
    rw [separatedTail_ok (sign_reads (c := ',') rfl (fun _ => True) s m first trivial)
      (each _ _ h (wf _ List.mem_cons_self) m r second next) spells.length_lt, separatedTail_misses misses]
    rfl
  | @cons a as ts us h _ ih =>
    intro s r spells hr
    obtain ⟨m, first, second⟩ := spells.split
    obtain ⟨n, element, rest⟩ := Spells.append_iff.1 second
    have shorter : n.length < s.length := Nat.lt_of_le_of_lt element.length_le first.length_lt
    rw [separatedTail_ok (sign_reads (c := ',') rfl (fun _ => True) s m first trivial)
      (each _ _ h (wf _ List.mem_cons_self) m n element (comma us n r rest)) shorter,
      ih (fun a ha => wf a (List.mem_cons_of_mem _ ha)) n r rest hr]
    rfl

/-- **A list is read** when its elements are, which stop before commas as well as at the end. -/
theorem separated_reads (h : WrittenList P as ts) (wf : ∀ a ∈ as, W a) :
    Reads (separated (spaced (sign ',')) p) ts as stop := by
  cases h with
  | @one a ts h =>
    have no_more : Reads (mapped (a :: ·) (separatedTail (spaced (sign ',')) p)) [] [a] stop := by
      intro s r spells hr
      cases spells
      simp only [mapped, separatedTail_misses (last s hr).2, Outcome.map]
    exact (each a ts h (wf a List.mem_cons_self)).followed_nil no_more fun r hr => (last r hr).1
  | @cons a as ts us h hs =>
    exact (each a ts h (wf a List.mem_cons_self)).followed
      ((listTail_reads each comma last hs fun a ha => wf a (List.mem_cons_of_mem _ ha)).mapped _)
      (fun m r spells _ => comma us m r spells)

end

/-- a list is read when its elements are, which nothing but certain words would go on -/
theorem list_reads {P : α → List Token → Prop} {W : α → Prop} {p : Reader α} {as : List α}
    (each : ∀ a ts, P a ts → W a → Reads p ts a (Stop [] words)) (filled : ∀ w ∈ words, w.toList ≠ [])
    (h : WrittenList P as ts) (wf : ∀ a ∈ as, W a) : Reads (separated (spaced (sign ',')) p) ts as (Stop [','] words) :=
  separated_reads each (fun _ _ _ spells => stop_sign spells (by decide) (by decide) List.not_mem_nil filled)
    (fun _ hr => ⟨hr.unsigned, hr.misses_sign (.inr (List.mem_singleton_self _))⟩) h wf

end EntitySearch.Query
