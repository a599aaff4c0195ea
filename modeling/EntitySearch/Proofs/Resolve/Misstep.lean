/-
Which references from a root alias lead to a property, and which step the others are refused for.

The walk along a reference looks at one name after the other; the catalog is asked for a whole path at once. They agree:
in a scope with a single root alias, a reference of that alias and some names is resolved exactly if the catalog has a
property there that the clause being walked takes, and then to a path of those canonical names. A step goes wrong
(`Catalog.Misstep`) where the catalog has nothing, or where it has a scalar with names left behind it. The first such step
is the one that the error names, with the type it is taken from; without any, the end is of the wrong kind (`refusal`).

- `descend_object`: only embedded objects have properties, so the walk gets along every path that goes on.
- `resolvePath_misstep`: the walk ends at the first step that goes wrong.
- `resolvePath_judged`: the two accounts agree, in every scope with one root alias, whatever joins it holds.
-/
import EntitySearch.Proofs.Resolve.Rooted
import EntitySearch.Proofs.Resolve.Session

namespace EntitySearch

/-! ## Steps that go wrong -/

namespace Catalog

/-- The step behind `before` goes wrong along the names, for the reason given. -/
inductive Misstep (c : Catalog) (entity : String) (names before : List String) : SchemaError → Prop where
  /-- there is no property -/
  | missing {name : String} {after : List String} (split : names = before ++ name :: after)
      (absent : c.hasProperty entity (before ++ [name]) = false) :
      Misstep c entity names before (.unknownProperty name (ObjectType.name ⟨entity, before⟩))
  /-- there is a scalar, and the names go on -/
  | scalar {name next : String} {after : List String} (split : names = before ++ name :: next :: after)
      (present : c.hasProperty entity (before ++ [name]) = true)
      (plain : c.isEmbedded entity (before ++ [name]) = false) :
      Misstep c entity names before (.notEmbedded name (ObjectType.name ⟨entity, before⟩))

/-- a step that goes wrong, and none before it does -/
structure FirstMisstep (c : Catalog) (entity : String) (names before : List String) (fault : SchemaError) : Prop where
  here : c.Misstep entity names before fault
  first : ∀ {earlier fault'}, c.Misstep entity names earlier fault' → before.length ≤ earlier.length

variable {c : Catalog} {entity : String} {names before after : List String}

/-- names behind which no step before goes wrong lead to an object -/
theorem object_of_no_misstep (split : names = before ++ after) (more : after ≠ [])
    (none_earlier : ∀ {earlier fault}, c.Misstep entity names earlier fault → before.length ≤ earlier.length) :
    before = [] ∨ c.isEmbedded entity before = true := by
  rcases List.eq_nil_or_concat before with hb | ⟨earlier, name, hb⟩
  · exact .inl hb
  · obtain ⟨next, rest, rfl⟩ := List.exists_cons_of_ne_nil more
    have along : names = earlier ++ name :: next :: rest := by simp [split, hb]
    have shorter : ¬before.length ≤ earlier.length := by simp [hb]
    rw [List.concat_eq_append] at hb
    rw [hb]
    cases present : c.hasProperty entity (earlier ++ [name]) with
    | false => exact absurd (none_earlier (.missing along present)) shorter
    | true =>
      cases object : c.isEmbedded entity (earlier ++ [name]) with
      | false => exact absurd (none_earlier (.scalar along present object)) shorter
      | true => exact .inr rfl

/-- no step goes wrong on the way to a property -/
theorem steady_of_hasProperty (h : c.hasProperty entity names = true) {fault : SchemaError} :
    ¬c.Misstep entity names before fault := by
  rintro (@⟨name, after, split, absent⟩ | @⟨name, next, after, split, -, plain⟩)
  · have along : names = before ++ [name] ++ after := by simp [split]
    by_cases more : after = []
    · rw [along, more, List.append_nil, absent] at h
      cases h
    · have object := isEmbedded_of_hasProperty (by simp) more (along ▸ h)
      rw [Path.hasProperty_of_isEmbedded object] at absent
      cases absent
  · have along : names = before ++ [name] ++ next :: after := by simp [split]
    rw [isEmbedded_of_hasProperty (by simp) (List.cons_ne_nil next after) (along ▸ h)] at plain
    cases plain

end Catalog

namespace Scope

variable {c : Catalog} {s : Scope} {root entity name : String} {p q : Path} {names before after : List String}
  {fault : SchemaError}

/-! ## The walk -/

/-- a path goes on along some names -/
structure GoesOn (p : Path) (names : List String) (q : Path) : Prop where
  start : q.start = p.start
  root : q.root = p.root
  properties : q.properties = p.properties ++ names

theorem GoesOn.push (p : Path) (name : String) (type : Option ObjectType) : GoesOn p [name] (p.push ⟨name, type⟩) :=
  ⟨rfl, rfl, by simp⟩

theorem stepInto_goesOn (h : stepInto c p name = .ok q) : GoesOn p [name] q := by
  unfold stepInto at h
  split at h
  · cases h
  · split at h
    · cases h
    · split at h
      · cases h
      · cases h
        exact .push ..

theorem lastStep_goesOn (h : s.lastStep c p name = .ok q) : GoesOn p [name] q := by
  unfold lastStep at h
  split at h
  · cases h
  · split at h
    · cases h
    · split at h
      · cases h
        exact .push ..
      · split at h
        · cases h
        · cases h
          exact .push ..

theorem GoesOn.trans {r : Path} (h : GoesOn p before q) (h' : GoesOn q after r) : GoesOn p (before ++ after) r where
  start := h'.start.trans h.start
  root := h'.root.trans h.root
  properties := by rw [h'.properties, h.properties, List.append_assoc]

/-- a path behind a root alias is written with the alias in front -/
theorem GoesOn.text (h : GoesOn (.ofAlias root (.ofEntity entity)) names q) :
    q.text = Text.dotted (root :: names) ∧ q.root.entity = entity := by
  rw [Path.text, Path.names, h.properties, h.start, h.root]
  exact ⟨rfl, rfl⟩

theorem descend_goesOn (h : descend c p names = .ok q) : GoesOn p names q := by
  induction names generalizing p with
  | nil =>
    cases h
    exact ⟨rfl, rfl, (List.append_nil _).symm⟩
  | cons name rest ih =>
    simp only [descend, bind_eq_ok] at h
    obtain ⟨next, hnext, h⟩ := h
    exact (stepInto_goesOn hnext).trans (ih h)

theorem descend_append : descend c p (before ++ after) = (descend c p before >>= fun q => descend c q after) := by
  induction before generalizing p with
  | nil => rfl
  | cons name rest ih =>
    simp only [List.cons_append, descend]
    cases stepInto c p name with
    | error e => rfl
    | ok next => exact ih

/-- the walk gets along the names of an embedded object -/
theorem descend_object (root : String) (object : names = [] ∨ c.isEmbedded entity names = true) :
    ∃ q, descend c (.ofAlias root (.ofEntity entity)) names = .ok q ∧ q.terminal = some ⟨entity, names⟩ := by
  have whole : (Path.ofAlias root (.ofEntity entity)).terminal = some ⟨entity, []⟩ := rfl
  rcases List.eq_nil_or_concat names with rfl | ⟨outer, last, rfl⟩
  · exact ⟨_, rfl, rfl⟩
  · rw [List.concat_eq_append] at object ⊢
    have embedded := object.resolve_left (by simp)
    obtain ⟨inner, hinner, hterminal⟩ :=
      descend_succeeds whole (List.cons_ne_nil last []) (Path.hasProperty_of_isEmbedded embedded)
    refine ⟨inner.push ⟨last, some ⟨entity, outer ++ [last]⟩⟩, ?_, terminal_push ..⟩
    rw [descend_append, hinner, ok_bind, descend, stepInto_succeeds hterminal embedded, ok_bind, descend]
    rfl

/-- the walk of a reference that goes on behind a name -/
theorem resolvePath_further (rooted : s.Rooted root entity) (hp : descend c (.ofAlias root (.ofEntity entity)) before = .ok p)
    (more : after ≠ []) {e : QueryError} (refused : stepInto c p name = .error e) :
    s.resolvePath c ⟨root :: (before ++ name :: after), none⟩ = .error e := by
  obtain ⟨inner, last, rfl⟩ : ∃ inner last, after = inner ++ [last] :=
    ⟨_, _, (List.dropLast_append_getLast more).symm⟩
  have along : before ++ name :: (inner ++ [last]) = before ++ name :: inner ++ [last] := by simp
  rw [along, resolvePath_steps rooted, descend_append, hp, ok_bind, descend, refused]
  rfl

/-! ## References that are refused -/

/-- **The walk ends at the first step that goes wrong**, with the name of the step and the type it is taken from. -/
theorem resolvePath_misstep (rooted : s.Rooted root entity) (h : c.FirstMisstep entity names before fault) :
    s.resolvePath c ⟨root :: names, none⟩ = .error (.schema fault) := by
  obtain ⟨here, first⟩ := h
  cases here with
  | @missing name after split absent =>
    obtain ⟨p, hp, terminal⟩ := descend_object root (Catalog.object_of_no_misstep split (by simp) first)
    have unknown : ObjectType.hasProperty c ⟨entity, before⟩ name = false := absent
    rw [split]
    by_cases more : after = []
    · have refused : s.lastStep c p name = .error (.schema (.unknownProperty name (ObjectType.name ⟨entity, before⟩))) := by
        simp only [lastStep, terminal, unknown, Bool.not_false, if_true]
      rw [more, resolvePath_steps rooted, hp, ok_bind, refused]
      rfl
    · refine resolvePath_further rooted hp more ?_
      simp only [stepInto, terminal, unknown, Bool.not_false, if_true]
  | @scalar name next after split present plain =>
    obtain ⟨p, hp, terminal⟩ := descend_object root (Catalog.object_of_no_misstep split (by simp) first)
    have known : ObjectType.hasProperty c ⟨entity, before⟩ name = true := present
    have scalar : ObjectType.isEmbedded c ⟨entity, before⟩ name = false := plain
    rw [split]
    refine resolvePath_further rooted hp (by simp) ?_
    simp only [stepInto, terminal, known, scalar, Bool.not_true, Bool.not_false, Bool.false_eq_true, if_false,
      if_true]

/-- the error for a property at the end of a reference that the clause being walked does not take -/
def refusal (s : Scope) (root entity : String) (names : List String) : SchemaError :=
  if s.inSelect then .wholeEmbedded (Text.dotted (root :: names)) entity
  else .analyzedProperty (Text.dotted names) entity

/-- a walk in which no step goes wrong comes to an end that the clause takes, or is refused for it -/
theorem resolvePath_end (rooted : s.Rooted root entity) (hn : names ≠ [])
    (steady : ∀ {before fault}, ¬c.Misstep entity names before fault) (refused : ¬s.Takes c entity names) :
    s.resolvePath c ⟨root :: names, none⟩ = .error (.schema (s.refusal root entity names)) := by
  obtain ⟨front, name, split⟩ : ∃ front name, names = front ++ [name] :=
    ⟨_, _, (List.dropLast_append_getLast hn).symm⟩
  obtain ⟨p, hp, terminal⟩ := descend_object root
    (Catalog.object_of_no_misstep split (by simp) fun h => absurd h steady)
  have present : c.hasProperty entity (front ++ [name]) = true := by
    cases h : c.hasProperty entity (front ++ [name]) with
    | true => rfl
    | false => exact absurd (.missing split h) steady
  have known : ObjectType.hasProperty c ⟨entity, front⟩ name = true := present
  have along := descend_goesOn hp
  rw [split, resolvePath_steps rooted, hp, ok_bind]
  simp only [lastStep, terminal, known, Bool.not_true, Bool.false_eq_true, if_false]
  cases object : c.isEmbedded entity (front ++ [name]) with
  | true =>
    have embedded : ObjectType.isEmbedded c ⟨entity, front⟩ name = true := object
    have selected : s.inSelect = true := by
      cases hs : s.inSelect with
      | true => rfl
      | false =>
        exact absurd ⟨split ▸ present, by simp [hs], fun _ => Catalog.plain_iff.2 fun _ => split ▸ object⟩ refused
    simp only [embedded, if_true, ok_bind, checkEnd, selected, Bool.not_true, Bool.false_eq_true, if_false, refusal]
    have ends : (p.push ⟨name, some (ObjectType.embedded ⟨entity, front⟩ name)⟩).endsInObject = true := by
      simp [Path.endsInObject, Path.push]
    obtain ⟨text, root_entity⟩ := (along.trans (.push p name (some (ObjectType.embedded ⟨entity, front⟩ name)))).text
    rw [if_pos ends, text, root_entity]
  | false =>
    have scalar : ObjectType.isEmbedded c ⟨entity, front⟩ name = false := object
    obtain ⟨outside, analyzed⟩ : s.inSelect = false ∧ c.isAnalyzed entity (front ++ [name]) = true := by
      by_contra other
      refine refused ⟨split ▸ present, fun _ => split ▸ object, fun outside => Catalog.plain_iff.2 fun analyzed => ?_⟩
      exact absurd ⟨outside, split ▸ analyzed⟩ other
    have text : ObjectType.isAnalyzed c ⟨entity, front⟩ name = true := analyzed
    simp only [scalar, outside, text, Bool.not_false, Bool.and_true, Bool.false_eq_true, if_false, if_true, refusal]
    rfl

/-! ## The judgment -/

/-- where some step goes wrong there is a first one -/
theorem exists_first_misstep (h : c.Misstep entity names before fault) :
    ∃ before fault, c.FirstMisstep entity names before fault := by
  induction hn : before.length using Nat.strongRecOn generalizing before fault with
  | _ n ih =>
    by_cases earlier : ∃ before' fault', c.Misstep entity names before' fault' ∧ before'.length < n
    · obtain ⟨before', fault', h', shorter⟩ := earlier
      exact ih _ shorter h' rfl
    · exact ⟨before, fault, h, fun h' => Nat.le_of_not_lt fun shorter => earlier ⟨_, _, h', hn ▸ shorter⟩⟩

/-- the canonical names of a path from the root alias are those of its steps -/
theorem Rooted.canonical (rooted : s.Rooted root entity) (hstart : p.start = some root) :
    s.aliases.canonical p = .ok p.properties := by
  obtain ⟨n, hn⟩ := Nat.exists_eq_succ_of_ne_zero (Nat.ne_of_gt (AliasTable.size_pos rooted.bound))
  rw [AliasTable.canonical, hn]
  exact AliasTable.canonicalWithin_root hstart rooted.bound

/-- what a reference from the root alias is resolved to has the names of the reference -/
theorem resolvePath_canonical (rooted : s.Rooted root entity) (hn : names ≠ [])
    (hq : s.resolvePath c ⟨root :: names, none⟩ = .ok q) : s.aliases.canonical q = .ok names := by
  obtain ⟨front, name, rfl⟩ : ∃ front name, names = front ++ [name] :=
    ⟨_, _, (List.dropLast_append_getLast hn).symm⟩
  rw [resolvePath_steps rooted] at hq
  simp only [bind_eq_ok] at hq
  obtain ⟨inner, hinner, p, hp, hq⟩ := hq
  obtain ⟨rfl, -⟩ := checkEnd_ok hq
  have along := (descend_goesOn hinner).trans (lastStep_goesOn hp)
  rw [rooted.canonical along.start, along.properties]
  rfl

/-- **Path resolution accepts exactly the paths of the schema and blames the first bad step.** -/
theorem resolvePath_judged (rooted : s.Rooted root entity) (hn : names ≠ []) :
    ((∃ q, s.resolvePath c ⟨root :: names, none⟩ = .ok q) ↔ s.Takes c entity names) ∧
      (∀ q, s.resolvePath c ⟨root :: names, none⟩ = .ok q → s.aliases.canonical q = .ok names) ∧
      (∀ before fault, c.FirstMisstep entity names before fault →
        s.resolvePath c ⟨root :: names, none⟩ = .error (.schema fault)) ∧
      ((∀ before fault, ¬c.Misstep entity names before fault) → ¬s.Takes c entity names →
        s.resolvePath c ⟨root :: names, none⟩ = .error (.schema (s.refusal root entity names))) := by
  refine ⟨⟨fun ⟨q, hq⟩ => ?_, fun takes => ?_⟩, fun q hq => resolvePath_canonical rooted hn hq,
    fun _ _ first => resolvePath_misstep rooted first, fun steady => resolvePath_end rooted hn fun h => steady _ _ h⟩
  · by_contra refused
    by_cases wrong : ∃ before fault, c.Misstep entity names before fault
    · obtain ⟨before, fault, h⟩ := wrong
      obtain ⟨_, _, first⟩ := exists_first_misstep h
      cases hq.symm.trans (resolvePath_misstep rooted first)
    · have steady : ∀ {before fault}, ¬c.Misstep entity names before fault := fun h => wrong ⟨_, _, h⟩
      cases hq.symm.trans (resolvePath_end rooted hn steady refused)
  · obtain ⟨q, hq, -⟩ := resolvePath_rooted rooted takes
    exact ⟨q, hq⟩

/-- references from the hike in a session that joins its start: one to a property, one along a scalar, one to nothing,
one that SELECT does not take, and one that only SELECT takes -/
theorem ascent_judged :
    let s := (Session.run hikes [] Session.ascent).scope
    (∃ q, s.resolvePath hikes ⟨["h", "start", "altitude"], none⟩ = .ok q ∧
      s.aliases.canonical q = .ok ["start", "altitude"]) ∧
    s.resolvePath hikes ⟨["h", "difficulty", "altitude"], none⟩ =
      .error (.schema (.notEmbedded "difficulty" "Hike")) ∧
    s.resolvePath hikes ⟨["h", "start", "length"], none⟩ =
      .error (.schema (.unknownProperty "length" "Hike.start")) ∧
    (s.enter .select).resolvePath hikes ⟨["h", "start"], none⟩ = .error (.schema (.wholeEmbedded "h.start" "Hike")) ∧
    s.resolvePath hikes ⟨["h", "description"], none⟩ = .error (.schema (.analyzedProperty "description" "Hike")) := by
  intro s
  have rooted : s.Rooted "h" "Hike" := ⟨by decide +kernel, by decide +kernel⟩
  have outside : s.inSelect = false := by decide +kernel
  refine ⟨?_, ?_, ?_, ?_, ?_⟩
  · obtain ⟨taken, canonical, -⟩ := resolvePath_judged (c := hikes) rooted (List.cons_ne_nil "start" ["altitude"])
    obtain ⟨q, hq⟩ := taken.2 ⟨by decide +kernel, fun _ => by decide +kernel,
      fun _ => Catalog.plain_iff.2 fun analyzed => absurd analyzed (by decide +kernel)⟩
    exact ⟨q, hq, canonical q hq⟩
  · obtain ⟨-, -, misstep, -⟩ := resolvePath_judged (c := hikes) rooted (List.cons_ne_nil "difficulty" ["altitude"])
    exact misstep [] _ ⟨.scalar rfl (by decide +kernel) (by decide +kernel), fun _ => Nat.zero_le _⟩
  · obtain ⟨-, -, misstep, -⟩ := resolvePath_judged (c := hikes) rooted (List.cons_ne_nil "start" ["length"])
    refine misstep ["start"] _ ⟨.missing rfl (by decide +kernel), fun {earlier _} wrong => ?_⟩
    cases earlier with
    | cons => exact Nat.succ_le_succ (Nat.zero_le _)
    | nil =>
      rcases wrong with ⟨split, absent⟩ | ⟨split, -, plain⟩ <;> cases split
      · exact absurd absent (by decide +kernel)
      · exact absurd plain (by decide +kernel)
  · have selecting : (s.enter .select).Rooted "h" "Hike" := ⟨rooted.single, rooted.bound⟩
    obtain ⟨-, -, -, refused⟩ := resolvePath_judged (c := hikes) selecting (List.cons_ne_nil "start" [])
    refine refused (fun _ _ => Catalog.steady_of_hasProperty (by decide +kernel)) fun takes => ?_
    exact absurd (takes.selected rfl) (by decide +kernel)
  · obtain ⟨-, -, -, refused⟩ := resolvePath_judged (c := hikes) rooted (List.cons_ne_nil "description" [])
    rw [refusal, outside] at refused
    refine refused (fun _ _ => Catalog.steady_of_hasProperty (by decide +kernel)) fun takes => ?_
    exact absurd (Catalog.plain_iff.1 (takes.tested outside) (by decide +kernel)) (by decide +kernel)

end Scope

end EntitySearch
