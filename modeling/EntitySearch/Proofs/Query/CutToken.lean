/-
Gaps, signs and words in texts that are cut.

Gaps and signs are taken as they stand before a cut. A reader of a word looks for the characters of a name at the front
of the text and for nothing else (`ReadsWord`), so what it takes ends before the cut if the cut is a good one.
-/
import EntitySearch.Proofs.Query.Cut

namespace EntitySearch.Query

open Text

variable {α β : Type} {s t t' u v g c : List Char}

/-! ## Gaps -/

theorem gaps_eq_ok {a : Unit} {r : List Char} : gaps s = .ok a r ↔ s.dropWhile isGap = r := by
  simp [gaps]

theorem dropWhile_gaps (hg : AllGaps g) {d : Char} (hd : isGap d = false) (t : List Char) :
    (g ++ d :: v ++ t).dropWhile isGap = d :: v ++ t := by
  rw [List.append_assoc, List.dropWhile_append_of_pos hg, List.cons_append, List.dropWhile_cons, if_neg (by simp [hd])]

theorem Apart.past_gaps (h : Apart (g ++ v) t) (hg : AllGaps g) : Apart v t :=
  h.rest fun mark => absurd (hg '?' mark) (by decide)

theorem gaps_lexeme : Lexeme Apart gaps where
  suffix h := gaps_eq_ok.1 h ▸ List.dropWhile_suffix _
  ok {u v t t' _} h hv closes := by
    have stopped := gaps_eq_ok.1 h
    refine ⟨gaps_eq_ok.2 (span_cut stopped closes.clear).2, ?_⟩
    obtain ⟨g, heq⟩ : ∃ g, g ++ v = u := by
      obtain ⟨g, heq⟩ := List.dropWhile_suffix (l := u ++ t) isGap
      rw [stopped, ← List.append_assoc] at heq
      exact ⟨g, List.append_cancel_right heq⟩
    rcases eq_or_ne v [] with rfl | hne
    · refine .left fun c hc => isNameChar_of_isGap ?_
      have taken : ∀ d ∈ u, isGap d = true := by
        rcases gaps_split u with hg | ⟨g', d, w, rfl, hg, hd⟩
        · exact hg
        · rw [dropWhile_gaps hg hd] at stopped
          have := congrArg List.length stopped
          simp only [List.length_cons, List.length_append, List.length_nil] at this
          omega
      exact taken c (List.mem_of_getLast? hc)
    · exact heq ▸ hv.behind hne g
  idle hs := hs.dropWhile
  heeds {u t t' a r} h hu _ := by
    rw [← gaps_eq_ok.1 h]
    rcases gaps_split u with hg | ⟨g, c, v, rfl, hg, hc⟩
    · exact .inl hg
    · exact .inr (.inl ⟨c :: v, dropWhile_gaps hg hc t, hu.past_gaps hg⟩)

section

variable {p : Reader α}

/-- gaps may stand before -/
theorem Lexeme.behind_gaps (hp : Lexeme Apart p) : Lexeme Apart (Query.andRead gaps p) where
  toSteady := gaps_lexeme.toSteady.andRead hp.toSteady
  idle hs := hp.idle hs.dropWhile
  heeds {u t t' a r} read hu closes := by
    rcases gaps_split u with hg | ⟨g, c, v, rfl, hg, hc⟩
    · exact .inl hg
    · have skip (m : List Char) : Query.andRead gaps p (g ++ c :: v ++ m) = p (c :: v ++ m) := by
        rw [andRead_ok (gaps_eq_ok (a := ()) |>.2 (dropWhile_gaps hg hc m))]
      have apart : Apart (c :: v) t := hu.past_gaps hg
      rw [skip] at read ⊢
      rcases hp.heeds read apart closes with gaps | here
      · have first := gaps c List.mem_cons_self
        rw [hc] at first
        cases first
      · exact .inr here

theorem Declines.behind_gaps (hp : Declines Apart p) : Declines Apart (Query.andRead gaps p) :=
  gaps_lexeme.declines Settles.gaps.keepsMisses fun _ => hp

theorem Lexeme.give (cut : List Char → List Char → Prop) (a : α) : Lexeme cut (give a) where
  toSteady := .give a
  idle hs := hs
  heeds {u t t' b r} h hu _ := by
    cases h
    exact .inr (.inl ⟨u, rfl, hu⟩)

theorem Steady.spaced (hp : Steady Apart p) : Steady Apart (Query.spaced p) :=
  gaps_lexeme.toSteady.andRead (hp.thenDrop gaps_lexeme.toSteady)

theorem Lexeme.spaced (hp : Lexeme Apart p) : Lexeme Apart (Query.spaced p) := by
  have behind (a : α) : Lexeme Apart (Query.followed gaps fun _ => Query.give a) :=
    gaps_lexeme.followed (fun _ => .give Apart a) fun _ => .give a
  exact (hp.followed behind fun a => Settles.gaps.followed fun _ => .give a).behind_gaps

theorem Declines.spaced (hp : Declines Apart p) : Declines Apart (Query.spaced p) :=
  (hp.before fun a => Settles.gaps.followed fun _ => .give a).behind_gaps

theorem spaced_eq_ok {a : α} {r : List Char} :
    Query.spaced p s = .ok a r ↔ ∃ m, p (s.dropWhile isGap) = .ok a m ∧ m.dropWhile isGap = r := by
  unfold Query.spaced Query.andRead Query.thenDrop
  rw [followed_ok (m := s.dropWhile isGap) (gaps_eq_ok (a := ()) |>.2 rfl)]
  simp only [followed_eq_ok, gaps_eq_ok, Query.give, Outcome.ok.injEq]
  grind

theorem spaced_misses : Misses (Query.spaced p) s ↔ Misses p (s.dropWhile isGap) := by
  unfold Query.spaced Query.andRead Query.thenDrop
  rw [followed_misses]
  simp only [gaps_eq_ok]
  constructor
  · rintro (missed | ⟨_, m, rfl, missed⟩)
    · exact absurd missed (Settles.gaps s)
    · rcases followed_misses.1 missed with missed | ⟨a, m, -, missed⟩
      · exact missed
      · exact absurd missed (Settles.gaps.followed (fun _ => .give a) m)
  · intro missed
    exact .inr ⟨(), _, rfl, missed.followed _⟩

/-- it does not matter for a miss whether the value is refused before or behind the gaps -/
theorem Declines.checked_spaced {refused : α → Bool} {complaints : List Complaint}
    (hp : Declines Apart (checked refused complaints p)) (complaints' : List Complaint) :
    Declines Apart (checked refused complaints' (Query.spaced p)) := by
  refine hp.spaced.of_iff fun s => ?_
  rw [spaced_misses, checked_misses, checked_misses, spaced_misses]
  simp only [spaced_eq_ok]
  grind

end

/-! ## Signs -/

section

variable {c : Char} {a : Unit} {r : List Char}

theorem sign_eq_ok : sign c s = .ok a r ↔ s = c :: r := by
  cases s with
  | nil => simp [sign]
  | cons d s =>
    by_cases h : d = c
    · simp [sign, h]
    · simp [sign, h]

theorem sign_misses_iff : Misses (sign c) s ↔ s.head? ≠ some c := by
  refine ⟨fun missed front => ?_, sign_misses⟩
  obtain ⟨rest, rfl⟩ := List.head?_eq_some_iff.1 front
  exact misses_ne_ok missed (sign_eq_ok (a := ()) (r := rest)|>.2 rfl)

/-- a character that is in no name, does not end a text, and lets nothing follow that may be cut -/
def IsSign (c : Char) : Prop := (!isGap c && !isNameChar c && c != ';' && c != '?') = true

theorem isSign_iff : IsSign c ↔ isGap c = false ∧ isNameChar c = false ∧ c ≠ ';' ∧ c ≠ '?' := by
  simp [IsSign, and_assoc]

theorem sign_declines (hg : isGap c = false) (hs : c ≠ ';') (cut : List Char → List Char → Prop) :
    Declines cut (sign c) where
  blank h := sign_misses (h.head_ne hg hs)
  misses {u t t'} missed _ closes := by
    rw [sign_misses_iff] at missed ⊢
    cases u with
    | nil => exact closes.blank.head_ne hg hs
    | cons d u => exact missed

theorem sign_steady (c : Char) : Steady Anywhere (sign c) where
  suffix h := by
    rw [sign_eq_ok.1 h]
    exact List.suffix_cons c _
  ok {u v t t' _} h _ _ := by
    obtain rfl : u = c :: v := List.append_cancel_right (sign_eq_ok.1 h)
    exact ⟨sign_eq_ok.2 rfl, trivial⟩

/-- a sign is the beginning of an alternative wherever it leaves a good cut good -/
theorem sign_lexeme_of {cut : List Char → List Char → Prop} (h : IsSign c) (hp : Steady cut (sign c))
    (behind : ∀ {v t}, cut (c :: v) t → cut v t) : Lexeme cut (sign c) where
  toSteady := hp
  idle hs := ((sign_declines (isSign_iff.1 h).1 (isSign_iff.1 h).2.2.1 cut).blank hs).idle
  heeds {u t t' a r} read hu _ := by
    cases u with
    | nil => exact .inl (List.forall_mem_nil _)
    | cons d u =>
      obtain ⟨rfl, rfl⟩ := List.cons.inj (sign_eq_ok.1 read)
      exact .inr (.inl ⟨u, rfl, behind hu⟩)

theorem sign_lexeme (h : IsSign c) : Lexeme Apart (sign c) := by
  obtain ⟨-, plain, -, other⟩ := isSign_iff.1 h
  refine sign_lexeme_of h ((sign_steady c).upgrade fun {u t _} read => ?_) fun hu =>
    hu.rest (c := [c]) (by simpa using other.symm)
  obtain rfl : u = [c] := List.append_cancel_right (sign_eq_ok.1 read)
  exact .left fun d hd => by cases hd; exact plain

end

/-! ## Words -/

/-- the reader takes the word at the front of the text, if it is one that it takes for a value -/
structure ReadsWord (g : List Char → Option α) (p : Reader α) : Prop where
  empty : g [] = none
  some : ∀ {s a}, g (s.takeWhile isNameChar) = .some a → p s = .ok a (s.dropWhile isNameChar)
  none : ∀ {s}, g (s.takeWhile isNameChar) = .none → Misses p s

namespace ReadsWord

variable {g : List Char → Option α} {p : Reader α}

theorem ok_iff (h : ReadsWord g p) {a : α} {r : List Char} :
    p s = .ok a r ↔ g (s.takeWhile isNameChar) = .some a ∧ s.dropWhile isNameChar = r := by
  cases hg : g (s.takeWhile isNameChar) with
  | none => simpa using misses_ne_ok (h.none hg)
  | some b => simp [h.some hg]

theorem misses_iff (h : ReadsWord g p) : Misses p s ↔ g (s.takeWhile isNameChar) = .none := by
  refine ⟨fun missed => ?_, h.none⟩
  cases hg : g (s.takeWhile isNameChar) with
  | none => rfl
  | some b => exact absurd (h.some hg) (misses_ne_ok missed)

theorem declines (h : ReadsWord g p) : Declines Apart p := by
  have blank : ∀ {s}, Blank s → Misses p s := by
    intro s hs
    rw [h.misses_iff, hs.clear_name.takeWhile]
    exact h.empty
  refine ⟨blank, fun {u t t'} missed hu closes => ?_⟩
  rcases eq_or_ne u [] with rfl | hne
  · exact blank closes.blank
  · rw [h.misses_iff, (hu.front hne).1] at missed
    rwa [h.misses_iff, ((Apart.of_closes closes u).front hne).1]

/-- a word at the front ends before the cut -/
theorem ends_before (h : ReadsWord g p) {a : α} {r : List Char} (read : p (u ++ t) = .ok a r) (hu : Apart u t)
    (hne : u ≠ []) : ∃ v, r = v ++ t ∧ Apart v t := by
  rw [← (h.ok_iff.1 read).2, (hu.front hne).2]
  refine ⟨_, rfl, Apart.rest (c := u.takeWhile isNameChar) (by rwa [List.takeWhile_append_dropWhile]) fun hmem => ?_⟩
  exact absurd (List.mem_takeWhile_imp hmem) (by decide)

theorem lexeme (h : ReadsWord g p) : Lexeme Apart p where
  suffix read := (h.ok_iff.1 read).2 ▸ List.dropWhile_suffix _
  ok {u v t t' a} read hv closes := by
    obtain ⟨word, stopped⟩ := h.ok_iff.1 read
    obtain ⟨same, stopped'⟩ := span_cut stopped fun _ => closes.blank.clear_name
    refine ⟨h.ok_iff.2 ⟨same ▸ word, stopped'⟩, ?_⟩
    rcases eq_or_ne v [] with rfl | hne
    · have clear := clear_dropWhile isNameChar (u ++ t)
      rw [stopped] at clear
      exact .right clear
    · obtain ⟨c, heq⟩ := List.dropWhile_suffix (l := u ++ t) isNameChar
      rw [stopped, ← List.append_assoc] at heq
      exact List.append_cancel_right heq ▸ hv.behind hne c
  idle hs := (h.declines.blank hs).idle
  heeds {u t t' a r} read hu _ := by
    rcases eq_or_ne u [] with rfl | hne
    · exact .inl (List.forall_mem_nil _)
    · exact .inr (.inl (h.ends_before read hu hne))

end ReadsWord

/-- what a name must be -/
def nameOf : List Char → Option String
  | [] => none
  | c :: w => if startsName c then some (String.ofList (c :: w)) else none

theorem name_readsWord : ReadsWord nameOf name where
  empty := rfl
  some {s a} h := by
    cases s with
    | nil => cases h
    | cons c s =>
      by_cases hc : startsName c = true
      · rw [List.takeWhile_cons, if_pos (isNameChar_of_startsName hc), nameOf, if_pos hc] at h
        rw [List.dropWhile_cons, if_pos (isNameChar_of_startsName hc), name, if_pos hc, Option.some.inj h]
      · rw [List.takeWhile_cons] at h
        split at h
        · simp [nameOf, hc] at h
        · cases h
  none {s} h := by
    cases s with
    | nil => exact ⟨_, rfl⟩
    | cons c s =>
      by_cases hc : startsName c = true
      · rw [List.takeWhile_cons, if_pos (isNameChar_of_startsName hc), nameOf, if_pos hc] at h
        cases h
      · exact ⟨_, by rw [name, if_neg hc]⟩

/-- the characters of a parameter's name -/
theorem run_readsWord : ReadsWord (fun w => if w = [] then none else some (String.ofList w)) (run isNameChar) where
  empty := rfl
  some {s a} h := by
    by_cases hw : s.takeWhile isNameChar = []
    · simp [hw] at h
    · simp only [hw, if_false, Option.some.injEq] at h
      simp [run, hw, h]
  none {s} h := by
    by_cases hw : s.takeWhile isNameChar = []
    · exact ⟨_, by simp [run, hw]; rfl⟩
    · simp [hw] at h

section

variable {word : String} (hw : IsWord word)

include hw

theorem wordFront_readsWord :
    ReadsWord (fun w => if lower w = lower word.toList then some () else none) (wordFront word) where
  empty := if_neg fun heq => by
    have empty : word.toList = [] := List.map_eq_nil_iff.1 heq.symm
    simp [IsWord, empty] at hw
  some {s a} h := wordFront_front (by simpa [lead] using h)
  none {s} h := wordFront_misses hw (by simpa [lead] using h)

theorem keyword_lexeme : Lexeme Apart (keyword word) := (wordFront_readsWord hw).lexeme.spaced

theorem keyword_declines : Declines Apart (keyword word) := (wordFront_readsWord hw).declines.spaced

theorem keyword_steady : Steady Apart (keyword word) := (keyword_lexeme hw).toSteady

end

end EntitySearch.Query
