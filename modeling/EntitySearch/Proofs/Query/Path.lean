/-
Names and paths are read as they are written.

A path is names joined by full stops without gaps, and it is read with its index (`path_reads`). Its first name is no
reserved word, which keeps it apart from the words of the grammar that may come in its place (`stop_path`).
-/
import EntitySearch.Proofs.Query.Literal

namespace EntitySearch.Query

open Text

variable {t : Token} {between m s r : List Char}

/-! ## Names and paths -/

section

variable {x first : String} {rest segments : List String}

theorem isIdentifier_iff : isIdentifier x = true ↔
    ∃ c l, x.toList = c :: l ∧ startsName c = true ∧ ∀ d ∈ l, isNameChar d = true := by
  unfold isIdentifier
  cases x.toList with
  | nil => simp
  | cons c l => simp

theorem isNameChar_of_isIdentifier (h : isIdentifier x = true) : ∀ c ∈ x.toList, isNameChar c = true := by
  obtain ⟨c, l, hx, hc, hl⟩ := isIdentifier_iff.1 h
  rw [hx]
  exact List.forall_mem_cons.2 ⟨isNameChar_of_startsName hc, hl⟩

theorem endsInName_of_isIdentifier (h : isIdentifier x = true) : EndsInName x.toList := by
  obtain ⟨c, l, hx, -⟩ := isIdentifier_iff.1 h
  exact endsInName_of_all (by simp [hx]) (isNameChar_of_isIdentifier h)

theorem name_front (h : isIdentifier x = true) (hr : Clear isNameChar r) : name (x.toList ++ r) = .ok x r := by
  obtain ⟨c, l, hx, hc, hl⟩ := isIdentifier_iff.1 h
  rw [hx, List.cons_append, name, takeWhile_front hl hr, dropWhile_front hl hr, if_pos hc, ← hx, String.ofList_toList]

/-- names behind the first one, each with a full stop before it -/
def dottedTail (rest : List String) : List Char := rest.flatMap fun x => '.' :: x.toList

theorem toList_dotted (first : String) (rest : List String) :
    (dotted (first :: rest)).toList = first.toList ++ dottedTail rest := by
  rw [dotted]
  induction rest generalizing first with
  | nil => simp [dottedTail]
  | cons x rest ih =>
    rw [String.intercalate_cons_cons, String.toList_append, String.toList_append, ih]
    simp [dottedTail]

theorem clear_dottedTail {p : Char → Bool} (hp : p '.' = false) (hr : Clear p r) : Clear p (dottedTail rest ++ r) := by
  cases rest with
  | nil => exact hr
  | cons x rest => exact clear_cons.2 hp

theorem endsInName_dottedTail (h : ∀ x ∈ rest, isIdentifier x = true) {l : List Char} (hl : EndsInName l) :
    EndsInName (l ++ dottedTail rest) := by
  induction rest generalizing l with
  | nil => rwa [dottedTail, List.flatMap_nil, List.append_nil]
  | cons x rest ih =>
    have next : EndsInName (l ++ '.' :: x.toList) :=
      ((endsInName_of_isIdentifier (h x List.mem_cons_self)).append ['.']).append l
    have := ih (fun y hy => h y (List.mem_cons_of_mem x hy)) next
    simpa [dottedTail] using this

theorem many_names (h : ∀ x ∈ rest, isIdentifier x = true) (hr : Clear isNameChar r) (point : r.head? ≠ some '.') :
    many (andRead (sign '.') name) (dottedTail rest ++ r) = .ok rest r := by
  induction rest with
  | nil => exact many_misses ((sign_misses point).andRead _)
  | cons x rest ih =>
    have split : dottedTail (x :: rest) ++ r = '.' :: (x.toList ++ (dottedTail rest ++ r)) := by simp [dottedTail]
    have point : sign '.' ('.' :: (x.toList ++ (dottedTail rest ++ r))) = .ok () (x.toList ++ (dottedTail rest ++ r)) :=
      rfl
    have element : andRead (sign '.') name ('.' :: (x.toList ++ (dottedTail rest ++ r))) =
        .ok x (dottedTail rest ++ r) := by
      rw [andRead_ok point, name_front (h x List.mem_cons_self) (clear_dottedTail rfl hr)]
    rw [split, many_ok element (by simp only [List.length_cons, List.length_append]; omega),
      ih fun y hy => h y (List.mem_cons_of_mem x hy)]
    rfl

/-- the token of names joined by full stops -/
theorem dotted_token (h : ∀ x ∈ first :: rest, isIdentifier x = true) (plain : Plain (dotted (first :: rest)) t) :
    t.chars = first.toList ++ dottedTail rest ∧ startsName t.first = true ∧ EndsWord t := by
  have chars : t.chars = first.toList ++ dottedTail rest := by rw [← toList_dotted]; exact plain
  obtain ⟨hfirst, hrest⟩ := List.forall_mem_cons.1 h
  obtain ⟨c, l, hx, hc, -⟩ := isIdentifier_iff.1 hfirst
  have head : t.first = c := by
    rw [hx] at chars
    exact (List.cons.inj chars).1
  refine ⟨chars, head ▸ hc, ?_, ?_⟩
  · rw [head]
    rintro rfl
    exact absurd hc (by decide)
  · show EndsInName t.chars
    rw [chars]
    exact endsInName_dottedTail hrest (endsInName_of_isIdentifier hfirst)

/-- a path without an index is read, whatever follows but a full stop -/
theorem plainPath_reads (h : IsPath segments) (plain : Plain (dotted segments) t) :
    Reads plainPath [t] segments fun m => m.head? ≠ some '.' := by
  intro s r spells point
  have gap := spells.clear
  obtain ⟨between, rfl, behind⟩ := spells.single
  cases segments with
  | nil => exact h.elim
  | cons first rest =>
    obtain ⟨hfirst, reserved, hrest⟩ := h
    obtain ⟨chars, -, ends⟩ := dotted_token (List.forall_mem_cons.2 ⟨hfirst, hrest⟩) plain
    have apart := behind.apart ends
    have no_point : between.head? ≠ some '.' := behind.head_ne rfl point
    have no_gap : gaps (t.chars ++ between) = .ok () (t.chars ++ between) := by rw [gaps, gap.dropWhile]
    have names := many_names hrest apart no_point
    have trailing : gaps between = .ok () r := by rw [gaps, behind.dropWhile]
    rw [plainPath, andRead_ok no_gap, chars, List.append_assoc, name_front hfirst (clear_dottedTail rfl apart)]
    simp only [Outcome.andThen, reserved, Bool.false_eq_true, if_false]
    exact thenDrop_ok (mapped_ok names _) trailing

end

/-- neither a literal between quotes or of digits nor a parameter stands at the front -/
structure NoLiteral (s : List Char) : Prop where
  text : Misses stringLiteral s
  number : Misses numberLiteral s
  named : Misses namedParameter s
  positional : Misses positionalParameter s

theorem noLiteral_of_startsName {c : Char} (h : startsName c = true) (hs : s.head? = some c) : NoLiteral s := by
  have ne {d : Char} (hd : startsName d = false) : s.head? ≠ some d := by
    rintro heq
    cases hs.symm.trans heq
    rw [h] at hd
    cases hd
  refine ⟨stringLiteral_misses (ne (by decide)), numberLiteral_misses fun d hd => ?_,
    namedParameter_misses (ne (by decide)), positionalParameter_misses (ne (by decide))⟩
  cases hs.symm.trans hd
  exact ⟨fun heq => ne (by decide) (heq ▸ hd), isDigit_of_startsName h⟩

/-- the readers of a text and of a number miss by the first character -/
theorem misses_string {c : Char} (hc : c ≠ '\'') (hs : s.head? = some c) : Misses stringLiteral s :=
  stringLiteral_misses fun heq => hc (Option.some.inj (hs.symm.trans heq))

theorem misses_number {c : Char} (hc : c ≠ '-' ∧ c.isDigit = false) (hs : s.head? = some c) : Misses numberLiteral s :=
  numberLiteral_misses fun d hd => by
    cases hs.symm.trans hd
    exact hc

theorem misses_named {c : Char} (hc : c ≠ ':') (hs : s.head? = some c) : Misses namedParameter s :=
  namedParameter_misses fun heq => hc (Option.some.inj (hs.symm.trans heq))

/-- the first character of a number -/
theorem IsNumeral.first {digits : String} (h : IsNumeral digits.toList) (plain : Plain digits t) :
    t.first = '-' ∨ t.first.isDigit = true := by
  have chars : t.chars = digits.toList := plain
  generalize digits.toList = l at h chars
  cases h with
  | positive hd =>
    obtain ⟨c, rest, rfl, hc⟩ := hd.head
    exact .inr ((List.cons.inj chars).1 ▸ hc)
  | negative hd => exact .inl (List.cons.inj chars).1

theorem IsNumeral.first_ne {digits : String} (h : IsNumeral digits.toList) (plain : Plain digits t) {c : Char}
    (hc : c ≠ '-' ∧ c.isDigit = false) : t.first ≠ c := by
  rintro rfl
  rcases h.first plain with hm | hd
  · exact hc.1 hm
  · rw [hc.2] at hd
    cases hd

theorem WrittenPosition.first {position : Option Nat} (h : WrittenPosition position t) : t.first = '?' := by
  cases h <;> rfl

/-- the first character of a path begins a name -/
theorem path_first {segments : List String} (h : IsPath segments) (plain : Plain (dotted segments) t) :
    startsName t.first = true := by
  cases segments with
  | nil => exact h.elim
  | cons first rest => exact (dotted_token (List.forall_mem_cons.2 ⟨h.1, h.2.2⟩) plain).2.1

/-- what stands between brackets is read -/
theorem index_reads {i : Index} (h : WrittenIndex i t) (wf : i.WellFormed) :
    Reads indexOperand [t] i (Stop [] []) := by
  cases h with
  | string x =>
    apply spaced_reads
    exact ((stringLiteral_takes x).mapped _).either_left _
  | number plain =>
    apply spaced_reads
    refine .skip (fun s hs => misses_string (wf.first_ne plain (by decide)) hs) ?_
    exact ((numberLiteral_takes wf plain).mapped _).either_left _
  | named x =>
    apply spaced_reads
    refine .skip (fun s hs => misses_string (c := ':') (by decide) hs) ?_
    refine .skip (fun s hs => misses_number (c := ':') (by decide) hs) ?_
    exact ((namedParameter_takes wf).mapped _).either_left _
  | positional written =>
    have first := written.first
    apply spaced_reads
    refine .skip (fun s hs => misses_string (c := '?') (by decide) (first ▸ hs)) ?_
    refine .skip (fun s hs => misses_number (c := '?') (by decide) (first ▸ hs)) ?_
    refine .skip (fun s hs => misses_named (c := '?') (by decide) (first ▸ hs)) ?_
    exact ((positionalParameter_takes written wf).mapped _).either_left _
  | path plain =>
    have begins : ∀ s r, Spells [t] s r → NoLiteral s := by
      intro s r spells
      exact noLiteral_of_startsName (path_first wf plain) spells.head
    have whole : Reads plainPath [t] _ (Stop [] []) := (plainPath_reads wf plain).mono fun r hr => hr.head_ne (.inl rfl)
    apply Reads.spaced
    refine .skip (fun s r spells _ => (begins s r spells).text) ?_
    refine .skip (fun s r spells _ => (begins s r spells).number) ?_
    refine .skip (fun s r spells _ => (begins s r spells).named) ?_
    exact .skip (fun s r spells _ => (begins s r spells).positional) (whole.mapped _)

/-- **A path is read** with its index, if it has one. -/
theorem path_reads {p : PathExpr} {ts : List Token} (h : WrittenPath p ts) (wf : p.WellFormed) :
    Reads pathExpr ts p (Stop [] []) := by
  cases h with
  | @plain segments t plain =>
    have unindexed : Reads (optional bracketed) [] none (Stop [] []) :=
      .optional_none fun r hr => (hr.misses_sign (.inl rfl)).andRead _
    exact (plainPath_reads wf.1 plain).followed_nil (unindexed.mapped _) fun r hr => hr.head_ne (.inl rfl)
  | @indexed segments i t u plain index =>
    have inner := (index_reads index (wf.2 i rfl)).require .index
    have closing := (sign_reads (t := .closingIndex) (c := ']') rfl (Stop [] [])).require .closingBracket
    have brackets : Reads bracketed [.openingIndex, u, .closingIndex] i (Stop [] []) :=
      after_sign rfl (before_sign inner closing rfl rfl List.not_mem_nil (List.forall_mem_nil _))
    refine (plainPath_reads wf.1 plain).followed (brackets.optional_some.mapped _) fun m r spells _ => ?_
    rw [spells.head]
    simp [Token.openingIndex]

/-! ## What a path keeps apart from -/

section

variable {signs : List Char} {words : List String} {ts : List Token}

theorem lower_ne_of_not_reserved {x w : String} (h : isReserved x = false) (hw : w ∈ reservedWords) :
    lower x.toList ≠ lower w.toList := by
  intro heq
  have := List.any_eq_false.1 h w hw
  simp [sameWord, heq] at this

/-- the word at the front of a path is a name that is not reserved -/
theorem path_lead {segments : List String} (h : IsPath segments) (plain : Plain (dotted segments) t)
    (spells : Spells (t :: ts) m r) : ∃ first, isReserved first = false ∧ lead m = lower first.toList := by
  obtain ⟨between, n, rfl, behind, -⟩ := Spells.cons_iff.1 spells
  cases segments with
  | nil => exact h.elim
  | cons first rest =>
    obtain ⟨hfirst, reserved, hrest⟩ := h
    obtain ⟨chars, -, ends⟩ := dotted_token (List.forall_mem_cons.2 ⟨hfirst, hrest⟩) plain
    refine ⟨first, reserved, ?_⟩
    rw [chars, List.append_assoc, lead_front (isNameChar_of_isIdentifier hfirst)]
    exact clear_dottedTail rfl (behind.apart ends)

/-- a path stops whatever waits for a reserved word -/
theorem stop_path {segments : List String} (h : IsPath segments) (plain : Plain (dotted segments) t)
    (spells : Spells (t :: ts) m r) (hsigns : AreSigns signs)
    (hwords : ∀ w ∈ words, w ∈ reservedWords) : Stop signs words m := by
  obtain ⟨first, reserved, hlead⟩ := path_lead h plain spells
  refine stop_name spells (path_first h plain) hsigns ?_
  intro w hw
  rw [hlead]
  exact lower_ne_of_not_reserved reserved (hwords w hw)

theorem WrittenPath.stop {p : PathExpr} (h : WrittenPath p ts) (wf : p.WellFormed) {us : List Token}
    (spells : Spells (ts ++ us) m r) (hsigns : AreSigns signs)
    (hwords : ∀ w ∈ words, w ∈ reservedWords) : Stop signs words m := by
  cases h with
  | plain plain => exact stop_path wf.1 plain spells hsigns hwords
  | indexed plain _ => exact stop_path wf.1 plain spells hsigns hwords

end

end EntitySearch.Query
