/-
Texts that are cut behind what was read.

What a reader takes from a text does not depend on what comes behind it. Let a reader take `u`, apart from `v`, from
`u ++ t`, and let `t'` come in place of `t`, where the end or a semicolon stands next (`Closes`): it takes the same from
`u ++ t'` (`Steady`). An alternative that was passed over on the way is passed over again (`Declines`), although a
reader may look far behind the cut before it misses. It may also have got so far by what stands there; what it then does
with the cut text is told by `Lexeme`.

A word must not be cut in two (`Apart`). The digits behind a question mark are the one thing that a letter may follow at
once, so they are let alone.
-/
import EntitySearch.Proofs.Query.Suffix
import EntitySearch.Proofs.Query.Operand
import EntitySearch.Proofs.Query.Taken

namespace EntitySearch.Query

open Text

variable {α β : Type} {s t t' u v g c : List Char}

/-! ## Ends of a text -/

/-- gaps, and then the end or a semicolon -/
def Blank (s : List Char) : Prop := ∀ c, (s.dropWhile isGap).head? = some c → c = ';'

/-- the second text ends a query, and does not begin with a gap unless the first one does -/
structure Closes (t t' : List Char) : Prop where
  blank : Blank t'
  clear : Clear isGap t → Clear isGap t'

theorem isNameChar_of_isGap {c : Char} (h : isGap c = true) : isNameChar c = false := by
  simp only [isGap, Bool.or_eq_true, beq_iff_eq] at h
  rcases h with ((rfl | rfl) | rfl) | rfl <;> decide

theorem blank_append (hg : AllGaps g) : Blank (g ++ s) ↔ Blank s := by
  rw [Blank, Blank, List.dropWhile_append_of_pos hg]

theorem Blank.dropWhile (h : Blank s) : Blank (s.dropWhile isGap) := by
  intro c hc
  rw [(clear_dropWhile isGap s).dropWhile] at hc
  exact h c hc

/-- what neither a gap nor a semicolon is does not come next -/
theorem Blank.clear (h : Blank s) {p : Char → Bool} (hp : ∀ c, isGap c = true → p c = false) (hs : p ';' = false) :
    Clear p s := by
  intro c hc
  obtain ⟨rest, rfl⟩ := List.head?_eq_some_iff.1 hc
  by_cases hg : isGap c = true
  · exact hp c hg
  · have front : ((c :: rest).dropWhile isGap).head? = some c := by simp [hg]
    rw [h c front]
    exact hs

theorem Blank.head_ne (h : Blank s) {c : Char} (hc : isGap c = false) (hs : c ≠ ';') : s.head? ≠ some c := by
  intro front
  obtain ⟨rest, rfl⟩ := List.head?_eq_some_iff.1 front
  exact hs (h c (by simp [hc]))

theorem Blank.clear_name (h : Blank s) : Clear isNameChar s := h.clear (fun _ => isNameChar_of_isGap) rfl

theorem Blank.clear_digit (h : Blank s) : Clear Char.isDigit s :=
  h.clear_name.mono fun _ => isNameChar_of_isDigit

theorem gaps_split (u : List Char) : AllGaps u ∨ ∃ g c v, u = g ++ c :: v ∧ AllGaps g ∧ isGap c = false := by
  cases hd : u.dropWhile isGap with
  | nil => exact .inl (List.dropWhile_eq_nil_iff.1 hd)
  | cons c v =>
    refine .inr ⟨u.takeWhile isGap, c, v, ?_, fun d hdm => List.mem_takeWhile_imp hdm, ?_⟩
    · rw [← hd, List.takeWhile_append_dropWhile]
    · exact clear_dropWhile isGap u c (by rw [hd]; rfl)

/-- the front of a text of a class of characters is the same when what follows it does not go on with the class -/
theorem span_cut {p : Char → Bool} (h : (u ++ t).dropWhile p = v ++ t) (ht : Clear p t → Clear p t') :
    (u ++ t').takeWhile p = (u ++ t).takeWhile p ∧ (u ++ t').dropWhile p = v ++ t' := by
  have whole : (u ++ t).takeWhile p ++ v = u := by
    have := List.takeWhile_append_dropWhile (p := p) (l := u ++ t)
    rw [h, ← List.append_assoc] at this
    exact List.append_cancel_right this
  have front : ∀ c ∈ (u ++ t).takeWhile p, p c = true := fun c hc => List.mem_takeWhile_imp hc
  have stop : Clear p (v ++ t') := by
    have stopped : Clear p (v ++ t) := h ▸ clear_dropWhile p (u ++ t)
    cases v with
    | nil => exact ht stopped
    | cons c v => exact clear_cons.2 (clear_cons.1 stopped)
  generalize (u ++ t).takeWhile p = w at whole front
  rw [← whole, List.append_assoc]
  exact ⟨takeWhile_front front stop, dropWhile_front front stop⟩

/-! ## Cuts between words -/

/-- no word goes on behind the cut, but perhaps one that a question mark and digits were taken from -/
inductive Apart (u t : List Char) : Prop where
  | right : Clear isNameChar t → Apart u t
  | left : (∀ c, u.getLast? = some c → isNameChar c = false) → Apart u t
  | mark {front word : List Char} : u = front ++ '?' :: word → (∀ c ∈ word, isNameChar c = true) → Apart u t

/-- no condition on the cut -/
def Anywhere (_ _ : List Char) : Prop := True

namespace Apart

theorem nil (t : List Char) : Apart [] t := .left fun c hc => by simp at hc

/-- what stands before the last part does not matter -/
theorem behind (h : Apart v t) (hv : v ≠ []) (c : List Char) : Apart (c ++ v) t := by
  cases h with
  | right h => exact .right h
  | left h =>
    refine .left fun d hd => h d ?_
    rwa [List.getLast?_append_of_ne_nil _ hv] at hd
  | @mark front word heq h =>
    exact .mark (show c ++ v = (c ++ front) ++ '?' :: word by rw [heq, List.append_assoc]) h

/-- what stands behind the first part is apart, too -/
theorem rest (h : Apart (c ++ v) t) (hc : '?' ∉ c) : Apart v t := by
  rcases eq_or_ne v [] with rfl | hv
  · exact nil t
  · cases h with
    | right h => exact .right h
    | left h => exact .left fun d hd => h d (by rwa [List.getLast?_append_of_ne_nil _ hv])
    | @mark front word heq h =>
      rcases List.append_eq_append_iff.1 heq with ⟨m, rfl, rfl⟩ | ⟨m, rfl, hm⟩
      · exact .mark rfl h
      · cases m with
        | nil => exact .mark (show v = [] ++ '?' :: word from hm.symm) h
        | cons d m =>
          obtain ⟨rfl, -⟩ := List.cons.inj hm
          exact absurd (by simp) hc

theorem of_closes (h : Closes t t') (u : List Char) : Apart u t' := .right h.blank.clear_name

/-- the word at the front ends before the cut -/
theorem front (h : Apart u t) (hu : u ≠ []) :
    (u ++ t).takeWhile isNameChar = u.takeWhile isNameChar ∧
      (u ++ t).dropWhile isNameChar = u.dropWhile isNameChar ++ t := by
  by_cases hall : ∀ c ∈ u, isNameChar c = true
  · have clear : Clear isNameChar t := by
      cases h with
      | right h => exact h
      | left h =>
        have last := h _ (List.getLast?_eq_some_getLast hu)
        rw [hall _ (List.getLast_mem hu)] at last
        cases last
      | mark heq _ =>
        have := hall '?' (by rw [heq]; simp)
        exact absurd this (by decide)
    rw [takeWhile_front hall clear, dropWhile_front hall clear, List.takeWhile_eq_self_iff.2 hall,
      List.dropWhile_eq_nil_iff.2 hall]
    exact ⟨rfl, rfl⟩
  · have other : u.dropWhile isNameChar ≠ [] := fun heq => hall (List.dropWhile_eq_nil_iff.1 heq)
    have shorter : (u.takeWhile isNameChar).length ≠ u.length := by
      intro heq
      have split := congrArg List.length (List.takeWhile_append_dropWhile (p := isNameChar) (l := u))
      rw [List.length_append, heq] at split
      exact other (List.length_eq_zero_iff.1 (by omega))
    rw [List.takeWhile_append, if_neg shorter, List.dropWhile_append, if_neg (by simpa using other)]
    exact ⟨rfl, rfl⟩

end Apart

/-! ## Readers of texts that are cut -/

/-- nothing is read, or nothing but gaps is left before the end -/
def Outcome.Idle : Outcome α → Prop
  | .ok _ rest => Blank rest
  | .miss _ => True
  | .fail _ => False

/-- what the reader takes before a cut, it takes whatever closes the text there; and then the cut is a good one -/
structure Steady (cut : List Char → List Char → Prop) (p : Reader α) : Prop where
  suffix : ∀ {s r a}, p s = .ok a r → r <:+ s
  ok : ∀ {u v t t' a}, p (u ++ t) = .ok a (v ++ t) → cut v t → Closes t t' → p (u ++ t') = .ok a (v ++ t') ∧ cut u t

/-- what is missed is missed when the text is cut -/
def KeepsMisses (cut : List Char → List Char → Prop) (p : Reader α) : Prop :=
  ∀ {u t t'}, Misses p (u ++ t) → cut u t → Closes t t' → Misses p (u ++ t')

/-- an alternative: it is missed where nothing comes, and when the text is cut -/
structure Declines (cut : List Char → List Char → Prop) (p : Reader α) : Prop where
  blank : ∀ {s}, Blank s → Misses p s
  misses : KeepsMisses cut p

/-- the beginning of an alternative, which may be read from both sides of the cut: then it is read or missed where
nothing comes, or its end was all that stood behind the cut -/
structure Lexeme (cut : List Char → List Char → Prop) (p : Reader α) : Prop extends Steady cut p where
  idle : ∀ {s}, Blank s → (p s).Idle
  heeds : ∀ {u t t' a r}, p (u ++ t) = .ok a r → cut u t → Closes t t' →
    AllGaps u ∨ (∃ v, r = v ++ t ∧ cut v t) ∨ ∃ a' r', p (u ++ t') = .ok a' r' ∧ Blank r'

variable {cut : List Char → List Char → Prop} {p q : Reader α} {f : α → Reader β}

theorem Misses.idle (h : Misses p s) : (p s).Idle := by
  obtain ⟨fault, h⟩ := h
  rw [h]
  trivial

theorem Settles.keepsMisses (h : Settles p) : KeepsMisses cut p := fun missed => absurd missed (h _)

theorem Blank.behind_gaps (h : Closes t t') (hu : AllGaps u) : Blank (u ++ t') := (blank_append hu).2 h.blank

namespace Steady

theorem give (a : α) : Steady cut (give a) where
  suffix h := by cases h; exact List.suffix_refl _
  ok h hc _ := by
    simp only [Query.give, Outcome.ok.injEq] at h
    obtain ⟨rfl, h⟩ := h
    cases List.append_cancel_right h
    exact ⟨rfl, hc⟩

/-- the reader takes what another one takes, with a value made from the other's -/
theorem of_iff {q : Reader β} {g : α → Option β} (hp : Steady cut p)
    (h : ∀ s b r, q s = .ok b r ↔ ∃ a, p s = .ok a r ∧ g a = some b) : Steady cut q where
  suffix hq := by
    obtain ⟨a, hp', -⟩ := (h _ _ _).1 hq
    exact hp.suffix hp'
  ok hq hc closes := by
    obtain ⟨a, hp', hg⟩ := (h _ _ _).1 hq
    obtain ⟨same, hu⟩ := hp.ok hp' hc closes
    exact ⟨(h _ _ _).2 ⟨a, same, hg⟩, hu⟩

/-- the second reader shows where the first one stopped -/
theorem followed (hp : Steady cut p) (hf : ∀ a, Steady cut (f a)) : Steady cut (followed p f) where
  suffix h := by
    obtain ⟨a, m, first, second⟩ := followed_eq_ok.1 h
    exact ((hf a).suffix second).trans (hp.suffix first)
  ok h hc closes := by
    obtain ⟨a, m, first, second⟩ := followed_eq_ok.1 h
    obtain ⟨x, rfl⟩ := (hf a).suffix second
    rw [← List.append_assoc] at first second
    obtain ⟨second', hx⟩ := (hf a).ok second hc closes
    obtain ⟨first', hu⟩ := hp.ok first hx closes
    exact ⟨followed_eq_ok.2 ⟨a, _, first', second'⟩, hu⟩

theorem andRead {q : Reader β} (hp : Steady cut p) (hq : Steady cut q) : Steady cut (andRead p q) :=
  hp.followed fun _ => hq

theorem thenDrop {q : Reader β} (hp : Steady cut p) (hq : Steady cut q) : Steady cut (thenDrop p q) :=
  hp.followed fun a => hq.followed fun _ => .give a

theorem mapped (hp : Steady cut p) (f : α → β) : Steady cut (mapped f p) :=
  hp.of_iff (g := fun a => some (f a)) fun s b r => by simp [mapped_eq_ok]

theorem require (hp : Steady cut p) (complaint : Complaint) : Steady cut (require complaint p) :=
  hp.of_iff (g := some) fun s b r => by simp [require_eq_ok]

theorem firmly (hp : Steady cut p) : Steady cut (firmly p) :=
  hp.of_iff (g := some) fun s b r => by unfold Query.firmly; cases p s <;> simp [Outcome.firm]

theorem blaming (hp : Steady cut p) (complaint : Complaint) : Steady cut (blaming complaint p) :=
  hp.of_iff (g := some) fun s b r => by unfold Query.blaming; cases p s <;> simp [Outcome.blame]

theorem checked (hp : Steady cut p) (refused : α → Bool) (complaints : List Complaint) :
    Steady cut (checked refused complaints p) :=
  hp.of_iff (g := fun a => if refused a then none else some a) fun s a r => by
    simp only [checked_eq_ok]
    grind

/-- the first alternative has to be passed over again where the second one is taken -/
theorem either_of (hp : Steady cut p) (hq : Steady cut q)
    (pass : ∀ {u v t t' a}, Misses p (u ++ t) → q (u ++ t) = .ok a (v ++ t) → cut u t → Closes t t' →
      Misses p (u ++ t')) : Steady cut (either p q) where
  suffix h := by
    rcases either_eq_ok.1 h with h | ⟨-, h⟩
    · exact hp.suffix h
    · exact hq.suffix h
  ok h hc closes := by
    rcases either_eq_ok.1 h with h | ⟨missed, h⟩
    · obtain ⟨same, hu⟩ := hp.ok h hc closes
      exact ⟨either_ok same _, hu⟩
    · obtain ⟨same, hu⟩ := hq.ok h hc closes
      rw [either_misses (pass missed h hu closes)]
      exact ⟨same, hu⟩

theorem either (hp : Steady cut p) (hd : KeepsMisses cut p) (hq : Steady cut q) : Steady cut (either p q) :=
  hp.either_of hq fun missed _ hu closes => hd missed hu closes

theorem optional (hp : Steady cut p) (hd : KeepsMisses cut p) : Steady cut (optional p) where
  suffix h := by
    rcases optional_eq_ok.1 h with ⟨a, -, h⟩ | ⟨-, rfl, -⟩
    · exact hp.suffix h
    · exact List.suffix_refl _
  ok h hc closes := by
    rcases optional_eq_ok.1 h with ⟨a, rfl, found⟩ | ⟨rfl, same, missed⟩
    · obtain ⟨same, hu⟩ := hp.ok found hc closes
      exact ⟨optional_ok same, hu⟩
    · cases List.append_cancel_right same
      exact ⟨optional_misses (hd missed hc closes), hc⟩

theorem present (hp : Steady cut p) (hd : KeepsMisses cut p) : Steady cut (present p) := (hp.optional hd).mapped _

theorem many_suffix (hp : Steady cut p) {s r : List Char} {as : List α} (h : many p s = .ok as r) : r <:+ s := by
  induction as generalizing s with
  | nil =>
    obtain ⟨-, rfl, -⟩ | ⟨a, rest, m, hcons, -⟩ := many_eq_ok.1 h
    · exact List.suffix_refl _
    · cases hcons
  | cons a as ih =>
    obtain ⟨hnil, -⟩ | ⟨a, rest, m, hcons, element, -, further⟩ := many_eq_ok.1 h
    · cases hnil
    · cases hcons
      exact (ih further).trans (hp.suffix element)

/-- as many elements are read again, if one more is missed again -/
theorem many_of (hp : Steady cut p) {as : List α} (h : Query.many p (u ++ t) = .ok as (v ++ t)) (hc : cut v t)
    (closes : Closes t t') (last : Misses p (v ++ t')) : Query.many p (u ++ t') = .ok as (v ++ t') ∧ cut u t := by
  induction as generalizing u with
  | nil =>
    obtain ⟨-, same, -⟩ | ⟨a, rest, m, hcons, -⟩ := many_eq_ok.1 h
    · cases List.append_cancel_right same
      exact ⟨many_misses last, hc⟩
    · cases hcons
  | cons a as ih =>
    obtain ⟨hnil, -⟩ | ⟨a, rest, m, hcons, element, shorter, further⟩ := many_eq_ok.1 h
    · cases hnil
    · cases hcons
      obtain ⟨x, rfl⟩ := hp.many_suffix further
      rw [← List.append_assoc] at element further shorter
      obtain ⟨further', hx⟩ := ih further
      obtain ⟨element', hu⟩ := hp.ok element hx closes
      have shorter' : (x ++ v ++ t').length < (u ++ t').length := by
        simp only [List.length_append] at shorter ⊢
        omega
      exact ⟨many_eq_ok.2 (.inr ⟨a, as, _, rfl, element', shorter', further'⟩), hu⟩

theorem many (hp : Steady cut p) (hd : KeepsMisses cut p) : Steady cut (many p) where
  suffix h := hp.many_suffix h
  ok h hc closes := hp.many_of h hc closes (hd (many_rest h) hc closes)

/-- the reader may be taken for one that tells good cuts from bad ones -/
theorem upgrade (hp : Steady Anywhere p) (h : ∀ {u t a}, p (u ++ t) = .ok a t → Apart u t) : Steady Apart p where
  suffix := hp.suffix
  ok := by
    intro u v t t' a read hv closes
    refine ⟨(hp.ok read trivial closes).1, ?_⟩
    rcases eq_or_ne v [] with rfl | hne
    · exact h read
    · obtain ⟨c, heq⟩ := hp.suffix read
      rw [← List.append_assoc] at heq
      rw [← List.append_cancel_right heq]
      exact hv.behind hne c

end Steady

namespace Declines

theorem of_iff {q : Reader β} (hp : Declines cut p) (h : ∀ s, Misses q s ↔ Misses p s) : Declines cut q where
  blank hs := (h _).2 (hp.blank hs)
  misses missed hu closes := (h _).2 (hp.misses ((h _).1 missed) hu closes)

theorem mapped (hp : Declines cut p) (f : α → β) : Declines cut (mapped f p) := hp.of_iff fun _ => mapped_misses

/-- what comes behind the beginning is never missed -/
theorem before (hp : Declines cut p) (hf : ∀ a, Settles (f a)) : Declines cut (followed p f) := by
  refine hp.of_iff fun s => ⟨fun missed => ?_, fun missed => missed.followed f⟩
  rcases followed_misses.1 missed with missed | ⟨a, m, -, missed⟩
  · exact missed
  · exact absurd missed (hf a m)

theorem either (hp : Declines cut p) (hq : Declines cut q) : Declines cut (either p q) where
  blank hs := (hp.blank hs).either (hq.blank hs)
  misses missed hu closes := by
    obtain ⟨first, second⟩ := either_misses_iff.1 missed
    exact (hp.misses first hu closes).either (hq.misses second hu closes)

end Declines

/-- an alternative whose beginning fits may still be missed by what comes behind it -/
theorem Lexeme.declines (hp : Lexeme cut p) (hd : KeepsMisses cut p) (hf : ∀ a, Declines cut (f a)) :
    Declines cut (followed p f) := by
  have blank : ∀ {s}, Blank s → Misses (followed p f) s := by
    intro s hs
    have idle := hp.idle hs
    cases hread : p s with
    | ok a r =>
      rw [hread] at idle
      exact .followed_ok hread ((hf a).blank idle)
    | miss fault => exact Misses.followed ⟨fault, hread⟩ f
    | fail fault =>
      rw [hread] at idle
      exact idle.elim
  refine ⟨blank, fun missed hu closes => ?_⟩
  rcases followed_misses.1 missed with missed | ⟨a, r, read, missed⟩
  · exact (hd missed hu closes).followed f
  · rcases hp.heeds read hu closes with gaps | ⟨v, rfl, hv⟩ | ⟨a', r', read', hr⟩
    · exact blank (.behind_gaps closes gaps)
    · exact .followed_ok (hp.ok read hv closes).1 ((hf a).misses missed hv closes)
    · exact .followed_ok read' ((hf a').blank hr)

namespace Lexeme

/-- what comes behind the beginning is never missed -/
theorem followed (hp : Lexeme cut p) (hf : ∀ a, Lexeme cut (f a)) (settles : ∀ a, Settles (f a)) :
    Lexeme cut (followed p f) := by
  have idle_ok : ∀ {a s}, Blank s → ∃ b r, f a s = .ok b r ∧ Blank r := by
    intro a s hs
    have idle := (hf a).idle hs
    cases hread : f a s with
    | ok b r =>
      rw [hread] at idle
      exact ⟨b, r, rfl, idle⟩
    | miss fault => exact absurd ⟨fault, hread⟩ (settles a s)
    | fail fault =>
      rw [hread] at idle
      exact idle.elim
  refine ⟨hp.toSteady.followed fun a => (hf a).toSteady, fun {s} hs => ?_, fun read hu closes => ?_⟩
  · have idle := hp.idle hs
    cases hread : p s with
    | ok a m =>
      rw [hread] at idle
      rw [followed_ok hread]
      exact (hf a).idle idle
    | miss fault => exact (Misses.followed ⟨fault, hread⟩ f).idle
    | fail fault =>
      rw [hread] at idle
      exact idle.elim
  · obtain ⟨a, m, first, second⟩ := followed_eq_ok.1 read
    rcases hp.heeds first hu closes with gaps | ⟨v, rfl, hv⟩ | ⟨a', r', first', hr⟩
    · exact .inl gaps
    · have first' := (hp.ok first hv closes).1
      rcases (hf a).heeds second hv closes with gaps | here | ⟨b', r', second', hr⟩
      · obtain ⟨b', r', second', hr⟩ := idle_ok (a := a) (Blank.behind_gaps closes gaps)
        exact .inr (.inr ⟨b', r', followed_eq_ok.2 ⟨a, _, first', second'⟩, hr⟩)
      · exact .inr (.inl here)
      · exact .inr (.inr ⟨b', r', followed_eq_ok.2 ⟨a, _, first', second'⟩, hr⟩)
    · obtain ⟨b', r'', second', hr'⟩ := idle_ok (a := a') hr
      exact .inr (.inr ⟨b', r'', followed_eq_ok.2 ⟨a', _, first', second'⟩, hr'⟩)

theorem mapped (hp : Lexeme cut p) (f : α → β) : Lexeme cut (mapped f p) where
  toSteady := hp.toSteady.mapped f
  idle {s} hs := by
    have idle := hp.idle hs
    unfold Query.mapped
    cases hread : p s <;> rw [hread] at idle <;> exact idle
  heeds read hu closes := by
    obtain ⟨a, found, rfl⟩ := mapped_eq_ok.1 read
    rcases hp.heeds found hu closes with gaps | here | ⟨a', r', read', hr⟩
    · exact .inl gaps
    · exact .inr (.inl here)
    · exact .inr (.inr ⟨_, r', mapped_ok read' f, hr⟩)

theorem either (hp : Lexeme cut p) (hd : Declines cut p) (hq : Lexeme cut q) : Lexeme cut (either p q) where
  toSteady := hp.toSteady.either hd.misses hq.toSteady
  idle hs := by
    rw [either_misses (hd.blank hs)]
    exact hq.idle hs
  heeds read hu closes := by
    rcases either_eq_ok.1 read with read | ⟨missed, read⟩
    · rcases hp.heeds read hu closes with gaps | here | ⟨a', r', read', hr⟩
      · exact .inl gaps
      · exact .inr (.inl here)
      · exact .inr (.inr ⟨a', r', either_ok read' q, hr⟩)
    · rcases hq.heeds read hu closes with gaps | here | ⟨a', r', read', hr⟩
      · exact .inl gaps
      · exact .inr (.inl here)
      · exact .inr (.inr ⟨a', r', by rw [either_misses (hd.misses missed hu closes), read'], hr⟩)

theorem optional (hp : Lexeme cut p) (hd : Declines cut p) : Lexeme cut (optional p) where
  toSteady := hp.toSteady.optional hd.misses
  idle hs := by
    rw [optional_misses (hd.blank hs)]
    exact hs
  heeds {u t t' a r} read hu closes := by
    rcases optional_eq_ok.1 read with ⟨a, rfl, found⟩ | ⟨rfl, rfl, missed⟩
    · rcases hp.heeds found hu closes with gaps | here | ⟨a', r', read', hr⟩
      · exact .inl gaps
      · exact .inr (.inl here)
      · exact .inr (.inr ⟨_, r', optional_ok read', hr⟩)
    · exact .inr (.inl ⟨u, rfl, hu⟩)

end Lexeme

end EntitySearch.Query
