/-
Readers that fit, readers that miss, and how they are put together.

A reader `Reads` tokens as a value when it takes just these from every text of theirs whose rest it stops before; it
`Misses` where another alternative is to be tried. For each way to put readers together there is a lemma, so that a
reader of a clause reads what is written because its parts do.
-/
import EntitySearch.Proofs.Query.Scan

namespace EntitySearch.Query

open Text

variable {α β : Type}

/-! ## Misses -/

/-- the reader leaves the text to another alternative -/
def Misses (p : Reader α) (s : List Char) : Prop := ∃ fault, p s = .miss fault

section

variable {p : Reader α} {q : Reader β} {f : α → Reader β} {s m r : List Char} {a : α}

theorem followed_ok (h : p s = .ok a m) : followed p f s = f a m := by
  simp only [followed, h, Outcome.andThen]

theorem andRead_ok (h : p s = .ok a m) (q : Reader β) : andRead p q s = q m := followed_ok h

theorem thenDrop_ok {b : β} (hp : p s = .ok a m) (hq : q m = .ok b r) : thenDrop p q s = .ok a r := by
  rw [thenDrop, followed_ok hp, followed_ok hq, give]

theorem mapped_ok (h : p s = .ok a m) (f : α → β) : mapped f p s = .ok (f a) m := by
  simp only [mapped, h, Outcome.map]

theorem either_ok (h : p s = .ok a m) (q : Reader α) : either p q s = .ok a m := by
  simp only [either, h, Outcome.orElse]

theorem optional_ok (h : p s = .ok a m) : optional p s = .ok (some a) m := by
  simp only [optional, h, Outcome.map, Outcome.orElse]

theorem Misses.followed (h : Misses p s) (f : α → Reader β) : Misses (followed p f) s := by
  obtain ⟨fault, h⟩ := h
  exact ⟨fault, by simp only [Query.followed, h, Outcome.andThen]⟩

theorem Misses.followed_ok (hp : p s = .ok a m) (h : Misses (f a) m) : Misses (Query.followed p f) s := by
  obtain ⟨fault, h⟩ := h
  exact ⟨fault, by rw [Query.followed_ok hp, h]⟩

theorem Misses.andRead (h : Misses p s) (q : Reader β) : Misses (andRead p q) s := h.followed _

theorem Misses.mapped (h : Misses p s) (f : α → β) : Misses (mapped f p) s := by
  obtain ⟨fault, h⟩ := h
  exact ⟨fault, by simp only [Query.mapped, h, Outcome.map]⟩

theorem either_misses {p q : Reader α} (h : Misses p s) : either p q s = q s := by
  obtain ⟨fault, h⟩ := h
  simp only [either, h, Outcome.orElse]

theorem Misses.either {p q : Reader α} (h : Misses p s) (k : Misses q s) : Misses (either p q) s := by
  obtain ⟨fault, k⟩ := k
  exact ⟨fault, (either_misses h).trans k⟩

theorem optional_misses (h : Misses p s) : optional p s = .ok none s := by
  obtain ⟨fault, h⟩ := h
  simp only [optional, h, Outcome.map, Outcome.orElse]

theorem present_ok (h : p s = .ok a m) : present p s = .ok true m := mapped_ok (optional_ok h) _

theorem present_misses (h : Misses p s) : present p s = .ok false s := mapped_ok (optional_misses h) _

theorem many_misses (h : Misses p s) : many p s = .ok [] s := by
  obtain ⟨fault, h⟩ := h
  rw [many, h]

theorem many_ok (h : p s = .ok a m) (shorter : m.length < s.length) : many p s = (many p m).map (a :: ·) := by
  rw [many, h]
  simp only [shorter, dif_pos]

/-- the gaps at the front are taken before the reader starts -/
theorem spaced_clear (h : Clear isGap s) : spaced p s = (p s).andThen fun a m => .ok a (m.dropWhile isGap) := by
  simp only [spaced, andRead, followed, gaps, Outcome.andThen, h.dropWhile, thenDrop, give]

theorem Misses.spaced (h : Misses p s) (clear : Clear isGap s) : Misses (spaced p) s := by
  obtain ⟨fault, h⟩ := h
  exact ⟨fault, by rw [spaced_clear clear, h]; rfl⟩

end

/-! ## Readers of tokens -/

/-- the reader takes just the tokens, as the value, wherever the rest lets it stop -/
def Reads (p : Reader α) (ts : List Token) (a : α) (stop : List Char → Prop) : Prop :=
  ∀ s r, Spells ts s r → stop r → p s = .ok a r

namespace Reads

variable {p : Reader α} {f : α → Reader β} {t : Token} {ts us : List Token} {a : α} {b : β}
  {stop stop' : List Char → Prop}

/-- a reader that takes the gaps behind its tokens may as well be spaced -/
theorem spaced (h : Reads p (t :: ts) a stop) : Reads (spaced p) (t :: ts) a stop := by
  intro s r spells hr
  rw [spaced_clear spells.clear, h s r spells hr]
  simp only [Outcome.andThen, spells.clear_rest.dropWhile]

/-- a reader of one token may be spaced, and so takes the gaps behind it -/
theorem of_token (h : ∀ between r, Behind t between r → stop r → p (t.chars ++ between) = .ok a between) :
    Reads (Query.spaced p) [t] a stop := by
  intro s r spells hr
  have gap := spells.clear
  obtain ⟨between, rfl, behind⟩ := spells.single
  rw [spaced_clear gap, h between r behind hr]
  simp only [Outcome.andThen, behind.dropWhile]

theorem mono (h : Reads p ts a stop) (hs : ∀ r, stop' r → stop r) : Reads p ts a stop' :=
  fun s r spells hr => h s r spells (hs r hr)

/-- one reader after the other: the first stops where the tokens of the second begin -/
theorem followed (hp : Reads p ts a stop') (hf : Reads (f a) us b stop)
    (next : ∀ m r, Spells us m r → stop r → stop' m) : Reads (followed p f) (ts ++ us) b stop := by
  intro s r spells hr
  obtain ⟨m, first, second⟩ := Spells.append_iff.1 spells
  rw [followed_ok (hp s m first (next m r second hr)), hf m r second hr]

/-- the second reader may take nothing -/
theorem followed_nil (hp : Reads p ts a stop') (hf : Reads (f a) [] b stop) (next : ∀ r, stop r → stop' r) :
    Reads (Query.followed p f) ts b stop := by
  intro s r spells hr
  rw [followed_ok (hp s r spells (next r hr)), hf r r (.nil r) hr]

theorem andRead {q : Reader β} (hp : Reads p ts a stop') (hq : Reads q us b stop)
    (next : ∀ m r, Spells us m r → stop r → stop' m) : Reads (andRead p q) (ts ++ us) b stop :=
  hp.followed hq next

theorem give (a : α) (stop : List Char → Prop) : Reads (give a) [] a stop := by
  intro s r spells _
  cases spells
  rfl

theorem thenDrop {q : Reader β} (hp : Reads p ts a stop') (hq : Reads q us b stop)
    (next : ∀ m r, Spells us m r → stop r → stop' m) : Reads (thenDrop p q) (ts ++ us) a stop := by
  exact hp.followed (hq.followed_nil (Reads.give a stop) fun _ hr => hr) next

theorem mapped (h : Reads p ts a stop) (f : α → β) : Reads (mapped f p) ts (f a) stop := by
  intro s r spells hr
  exact mapped_ok (h s r spells hr) f

theorem either_left (h : Reads p ts a stop) (q : Reader α) : Reads (either p q) ts a stop := by
  intro s r spells hr
  exact either_ok (h s r spells hr) q

theorem either_right {q : Reader α} (h : ∀ s r, Spells ts s r → stop r → Misses p s)
    (hq : Reads q ts a stop) : Reads (either p q) ts a stop := by
  intro s r spells hr
  rw [either_misses (h s r spells hr), hq s r spells hr]

/-- an alternative that misses is passed over, whatever is made of its value -/
theorem skip {g : α → β} {q : Reader β} (h : ∀ s r, Spells ts s r → stop r → Misses p s) (hq : Reads q ts b stop) :
    Reads (either (Query.mapped g p) q) ts b stop := by
  refine either_right (fun s r spells hr => ?_) hq
  exact (h s r spells hr).mapped g

theorem firmly (h : Reads p ts a stop) : Reads (firmly p) ts a stop := by
  intro s r spells hr
  simp only [Query.firmly, h s r spells hr, Outcome.firm]

theorem blaming (h : Reads p ts a stop) (complaint : Complaint) : Reads (blaming complaint p) ts a stop := by
  intro s r spells hr
  simp only [Query.blaming, h s r spells hr, Outcome.blame]

theorem require (h : Reads p ts a stop) (complaint : Complaint) : Reads (require complaint p) ts a stop :=
  h.firmly.blaming complaint

theorem optional_some (h : Reads p ts a stop) : Reads (optional p) ts (some a) stop := by
  intro s r spells hr
  exact optional_ok (h s r spells hr)

theorem optional_none (h : ∀ r, stop r → Misses p r) : Reads (optional p) [] none stop := by
  intro s r spells hr
  cases spells
  exact optional_misses (h s hr)

/-- no element more -/
theorem many_nil (h : ∀ r, stop r → Misses p r) : Reads (many p) [] [] stop := by
  intro s r spells hr
  cases spells
  exact many_misses (h s hr)

/-- one element more -/
theorem many_cons {as : List α} (h : Reads p (t :: ts) a stop') (hrest : Reads (many p) us as stop)
    (next : ∀ m r, Spells us m r → stop r → stop' m) : Reads (many p) (t :: (ts ++ us)) (a :: as) stop := by
  intro s r spells hr
  obtain ⟨m, element, rest⟩ := Spells.append_iff.1 (show Spells (t :: ts ++ us) s r from spells)
  rw [many_ok (h s m element (next m r rest hr)) element.length_lt, hrest m r rest hr]
  rfl

end Reads

end EntitySearch.Query
