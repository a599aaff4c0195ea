/-
What is left of the values of a condition in a JSON query.

The atoms of a JSON value are what it holds apart from lists and objects. Those of a query are the forms of the values in
its leaves and others that are never null (`replay_shows`). A boolean, a whole number, a date and a text have a form each,
and a double has one if it is finite: one that is not becomes null (`Value.toJson_eq_null`). So in what is compiled, a
literal shows as a boolean, a number or a text, unless it is read as a double that is not finite, and there are no other
nulls (`compile_scalars`).
-/
import EntitySearch.Backend.JsonQuery
import EntitySearch.Proofs.Literals
import EntitySearch.Proofs.Number.Double

namespace EntitySearch

/-! ## Atoms -/

namespace Json

mutual

/-- what a value holds apart from lists and objects, in its order -/
@[simp] def atoms : Json → List Json
  | .null => [.null]
  | .bool b => [.bool b]
  | .int n => [.int n]
  | .double x => [.double x]
  | .text s => [.text s]
  | .list items => atomsOf items
  | .object members => atomsIn members

@[simp] def atomsOf : List Json → List Json
  | [] => []
  | j :: rest => atoms j ++ atomsOf rest

@[simp] def atomsIn : List (String × Json) → List Json
  | [] => []
  | (_, j) :: rest => atoms j ++ atomsIn rest

end

/-- a boolean, a number or a text -/
def IsScalar : Json → Prop
  | .bool _ | .int _ | .text _ => True
  | .double x => x.isFinite = true
  | .null | .list _ | .object _ => False

@[simp] theorem atoms_one (key : String) (j : Json) : (one key j).atoms = j.atoms := by
  simp [one]

theorem atomsOf_eq_flatMap (js : List Json) : atomsOf js = js.flatMap atoms := by
  induction js with
  | nil => rfl
  | cons j rest ih => rw [atomsOf, ih, List.flatMap_cons]

theorem atomsIn_append (ms ns : List (String × Json)) : atomsIn (ms ++ ns) = atomsIn ms ++ atomsIn ns := by
  induction ms with
  | nil => rfl
  | cons m rest ih => rw [List.cons_append, atomsIn, atomsIn, ih, List.append_assoc]

@[simp] theorem atomsIn_unlessEmpty (key : String) (js : List Json) :
    atomsIn (JsonQuery.unlessEmpty key js) = atomsOf js := by
  cases js with
  | nil => rfl
  | cons j rest => simp [JsonQuery.unlessEmpty]

@[simp] theorem atoms_noneOf (js : List Json) : (JsonQuery.noneOf js).atoms = atomsOf js := by
  simp [JsonQuery.noneOf]

end Json

namespace Value

/-- the form of a value is an atom -/
@[simp] theorem atoms_toJson (v : Value) : v.toJson.atoms = [v.toJson] := by
  cases v with
  | double x => simp only [toJson, Json.ofDouble]; split <;> rfl
  | _ => rfl

@[simp] theorem atomsOf_toJson (vs : List Value) : Json.atomsOf (vs.map toJson) = vs.map toJson := by
  simp [Json.atomsOf_eq_flatMap, List.flatMap_map, ← List.map_eq_flatMap]

/-- **A value has a form**, unless it is a double that is not finite. -/
theorem toJson_isScalar {v : Value} (h : ∀ x, v = .double x → x.isFinite = true) : v.toJson.IsScalar := by
  cases v with
  | double x =>
    rw [toJson, Json.ofDouble, if_pos (h x rfl)]
    exact h x rfl
  | _ => trivial

theorem toJson_eq_null {x : Double} (h : x.isFinite = false) : (Value.double x).toJson = .null := by
  rw [toJson, Json.ofDouble, h]
  rfl

end Value

/-! ## Atoms of a query -/

/-- the atoms are the forms of the values, and others that are never null -/
def Shows (atoms : List Json) (vs : List Value) : Prop :=
  ∃ others, atoms.Perm (vs.map Value.toJson ++ others) ∧ .null ∉ others

namespace Shows

variable {as bs : List Json} {vs ws : List Value}

theorem forms (vs : List Value) : Shows (vs.map Value.toJson) vs := ⟨[], by simp, by simp⟩

theorem others (h : .null ∉ as) : Shows as [] := ⟨as, .refl as, h⟩

theorem append (h : Shows as vs) (h' : Shows bs ws) : Shows (as ++ bs) (vs ++ ws) := by
  obtain ⟨others, perm, plain⟩ := h
  obtain ⟨others', perm', plain'⟩ := h'
  refine ⟨others ++ others', (perm.append perm').trans ?_, by simp [plain, plain']⟩
  rw [List.map_append, List.append_assoc, List.append_assoc]
  exact (List.perm_append_comm_assoc ..).append_left _

end Shows

namespace JsonQuery

/-- the query of a test shows the values of the test -/
theorem test_shows (t : Test) : Shows (test t).atoms t.values := by
  cases t with
  | compare p r v => cases r <;> simpa [test, Test.values] using Shows.forms [v]
  | range p lower upper => simpa [test, Test.values] using Shows.forms [lower, upper]
  | among p values => simpa [test, Test.values] using Shows.forms values
  | like p pattern escape => exact .others (by simp [test])
  | isNull p => exact .others (by simp [test])

theorem having_shows (f : Aggregation) (p op : String) {rest : List (String × Json)} {vs : List Value}
    (h : Shows (Json.atomsIn rest) vs) : Shows (having f p op rest).atoms vs := by
  have named : Shows [.text f.name, .text p, .text op] [] := .others (by simp)
  simpa [having] using named.append h

theorem aggregateTest_shows (f : Aggregation) (t : Test) : Shows (aggregateTest f t).atoms t.values := by
  cases t with
  | compare p r v => exact having_shows f p _ (by simpa [Test.values] using Shows.forms [v])
  | range p lower upper =>
    exact having_shows f p _ (by simpa [Test.values] using Shows.forms [lower, upper])
  | among p values => exact having_shows f p _ (by simpa [Test.values] using Shows.forms values)
  | like p pattern escape => exact having_shows f p _ (.others (by simp))
  | isNull p => exact having_shows f p _ (.others (by simp))

/-- the values in the leaves -/
abbrev valuesIn (ls : List Positive) : List Value := ls.flatMap fun l => l.2.values

mutual

/-- **A query shows the values in its leaves**, however AND, OR and NOT are nested. -/
theorem replay_shows : ∀ t : Trace, Shows (t.replay factory).atoms (valuesIn t.leaves)
  | .matchAll _ => .others (by simp [Trace.replay, factory])
  | .leaf _ none t => by simpa [Trace.replay, factory, Trace.leaves] using test_shows t
  | .leaf _ (some f) t => by simpa [Trace.replay, factory, Trace.leaves] using aggregateTest_shows f t
  | .and must mustNot => by
    simpa [Trace.replay, factory, Trace.leaves, Json.atomsIn_append] using
      (replayAll_shows must).append (replayAll_shows mustNot)
  | .or parts => by
    have number : Shows [.int 1] [] := .others (by simp)
    simpa [Trace.replay, factory, Trace.leaves] using (replayAll_shows parts).append number
  | .not part => by simpa [Trace.replay, factory, Trace.leaves] using replay_shows part

theorem replayAll_shows : ∀ ts : List Trace,
    Shows (Json.atomsOf (Trace.replayAll factory ts)) (valuesIn (Trace.leavesOf ts))
  | [] => .others (by simp [Trace.replayAll])
  | t :: rest => by
    simpa [Trace.replayAll, Trace.leavesOf] using (replay_shows t).append (replayAll_shows rest)

end

end JsonQuery

/-! ## Literals -/

/-- The literal stands where a double belongs, and its text is a word for one that is not finite or a numeral that is
worth too much. -/
def Literal.Unbounded (c : Catalog) (entity : String) (l : Literal) (s : Subject) : Prop :=
  c.kindBeside entity s = some .double ∧ Number.Unbounded (Text.trim l.text).toList

/-- What a literal beside a subject shows as: the form of the value that it is converted to, a boolean, a number or a
text, and null only if it is read as a double that is not finite. -/
structure Literal.ShownAs (c : Catalog) (entity : String) (l : Literal) (s : Subject) (j : Json) : Prop where
  value : ∃ v : Value, c.kindBeside entity s = some v.kind ∧ v.kind.convert l.text = .ok v ∧ j = v.toJson
  scalar : ¬l.Unbounded c entity s → j.IsScalar
  null : l.Unbounded c entity s → j = .null

/-- the place holds a literal, which shows so -/
def Statement.PlaceShown (c : Catalog) (entity : String) (q : Statement) (place : Operand × Operand) (j : Json) : Prop :=
  ∃ s l, q.pointsTo place.1 = some s ∧ place.2 = .literal l ∧ l.ShownAs c entity s j

/-- Every place of a condition shows in a query, and there is no null but for a literal that is not finite. -/
structure Condition.ShownIn (c : Catalog) (entity : String) (q : Statement) (places : List (Operand × Operand))
    (j : Json) : Prop where
  forms : ∃ forms others, j.atoms.Perm (forms ++ others) ∧ .null ∉ others ∧
    List.Forall₂ (q.PlaceShown c entity) places forms
  nulls : .null ∈ j.atoms ↔
    ∃ place ∈ places, ∃ s l, q.pointsTo place.1 = some s ∧ place.2 = .literal l ∧ l.Unbounded c entity s

section

variable {c : Catalog} {parameters : Parameters} {q : Statement} {entity : String}

theorem Kind.convert_double {literal : String} {x : Double} :
    Kind.double.convert literal = .ok (.double x) ↔ Number.readDouble (Text.trim literal).toList = some x := by
  simp only [convert]
  cases Number.readDouble (Text.trim literal).toList <;> simp

/-- the form of a literal's value is that of the literal -/
theorem Literal.shownAs_of_convert {l : Literal} {s : Subject} {v : Value} (kind : c.kindBeside entity s = some v.kind)
    (converted : v.kind.convert l.text = .ok v) : l.ShownAs c entity s v.toJson where
  value := ⟨v, kind, converted, rfl⟩
  scalar bounded := Value.toJson_isScalar fun x hx => by
    subst hx
    cases finite : x.isFinite with
    | true => rfl
    | false => exact absurd ⟨kind, Number.unbounded_iff.2 ⟨x, Kind.convert_double.1 converted, finite⟩⟩ bounded
  null unbounded := by
    obtain ⟨double, much⟩ := unbounded
    obtain ⟨x, hx, infinite⟩ := Number.unbounded_iff.1 much
    obtain hv : v.kind = .double := Option.some.inj (kind.symm.trans double)
    rw [hv, Kind.convert_double.2 hx] at converted
    cases converted
    exact Value.toJson_eq_null infinite

theorem Literal.ShownAs.null_iff {l : Literal} {s : Subject} {j : Json} (h : l.ShownAs c entity s j) :
    j = .null ↔ l.Unbounded c entity s := by
  refine ⟨fun hj => ?_, h.null⟩
  by_contra bounded
  have scalar := h.scalar bounded
  rw [hj] at scalar
  exact scalar

/-- a value beside a property is that of a literal, if it is of no parameter -/
theorem shown_of_beside {place : Operand × Operand} {v : Positive × Value} (plain : ∀ name, place.2 ≠ .named name)
    (h : (q.sense parameters (Site.convert ⟨c, entity, Trace.factory⟩)).Beside place v) :
    q.PlaceShown c entity place v.2.toJson := by
  obtain ⟨s, hs, -, -, hv⟩ := h
  rw [sense_pointsTo] at hs
  obtain ⟨w, hw, hx⟩ := Option.bind_eq_some_iff.1 hv
  obtain ⟨operand, value⟩ := place
  cases value with
  | path e => cases hw
  | aggregate a => cases hw
  | positional n => cases hw
  | named name => exact absurd rfl (plain name)
  | literal l =>
    cases hw
    obtain ⟨kind, converted⟩ := Render.kindBeside_of_convert (toOption_eq_some.1 hx)
    exact ⟨s, l, hs, rfl, Literal.shownAs_of_convert kind converted⟩

theorem Statement.PlaceShown.null_iff {place : Operand × Operand} {j : Json} (h : q.PlaceShown c entity place j) :
    j = .null ↔ ∃ s l, q.pointsTo place.1 = some s ∧ place.2 = .literal l ∧ l.Unbounded c entity s := by
  obtain ⟨s, l, hs, hl, shown⟩ := h
  rw [shown.null_iff]
  constructor
  · exact fun unbounded => ⟨s, l, hs, hl, unbounded⟩
  · rintro ⟨s', l', hs', hl', unbounded⟩
    cases hs.symm.trans hs'
    cases hl.symm.trans hl'
    exact unbounded

/-- places that show in the atoms of a query account for its nulls -/
theorem Condition.ShownIn.of_forms {places : List (Operand × Operand)} {j : Json} {forms others : List Json}
    (atoms : j.atoms.Perm (forms ++ others)) (no_null : .null ∉ others)
    (shown : List.Forall₂ (q.PlaceShown c entity) places forms) : ShownIn c entity q places j where
  forms := ⟨forms, others, atoms, no_null, shown⟩
  nulls := by
    rw [atoms.mem_iff, List.mem_append, or_iff_left no_null]
    constructor
    · intro null
      obtain ⟨place, hplace, form⟩ := forall₂_right shown .null null
      exact ⟨place, hplace, (Statement.PlaceShown.null_iff form).1 rfl⟩
    · rintro ⟨place, hplace, unbounded⟩
      obtain ⟨form, hform, shown⟩ := forall₂_right shown.flip place hplace
      exact (Statement.PlaceShown.null_iff shown).2 unbounded ▸ hform

/-- **Literals show in the query of a condition** without parameters, and nothing else is null. -/
theorem record_shown {w : Condition Operand} {t : Trace} (plain : ∀ name, .named name ∉ w.operands)
    (h : w.record (q.sense parameters (Site.convert ⟨c, entity, Trace.factory⟩)) entity = some t) :
    Condition.ShownIn c entity q w.places (t.replay JsonQuery.factory) := by
  obtain ⟨vs, perm, each⟩ := Condition.record_values h
  obtain ⟨others, atoms, no_null⟩ := JsonQuery.replay_shows t
  rw [places_eq] at each
  have plain_places : ∀ place ∈ w.places, ∀ name, place.2 ≠ .named name := by
    rintro ⟨o, v⟩ hplace name rfl
    exact plain name (Condition.compared_operands w (List.mem_of_mem_filter hplace)).2
  have shown : List.Forall₂ (q.PlaceShown c entity) w.places (vs.map fun v => v.2.toJson) := by
    rw [List.forall₂_map_right_iff]
    exact ((List.forall₂_and_left w.places vs).2 ⟨plain_places, each⟩).imp fun place v h => shown_of_beside h.1 h.2
  have forms : (vs.map fun v => v.2.toJson).Perm ((JsonQuery.valuesIn t.leaves).map Value.toJson) := by
    refine (perm.map _).trans (.of_eq ?_)
    simp [Trace.values, List.map_flatMap, Function.comp_def]
  exact .of_forms (atoms.trans (forms.symm.append_right _)) no_null shown

/-- what a clause that may be left out shows -/
theorem recordIfGiven_shown {w : Option (Condition Operand)} {t : Trace}
    (plain : ∀ v ∈ w, ∀ name, .named name ∉ v.operands)
    (h : Condition.recordIfGiven (q.sense parameters (Site.convert ⟨c, entity, Trace.factory⟩)) entity w = some t) :
    Condition.ShownIn c entity q ((w.map Condition.places).getD []) (t.replay JsonQuery.factory) := by
  cases w with
  | some w => exact record_shown (plain w rfl) h
  | none =>
    cases h
    exact .of_forms (.refl _) List.not_mem_nil .nil

end

/-- no parameter is named in a condition -/
def Statement.NoParameters (q : Statement) : Prop :=
  ∀ w, q.filter = some w ∨ q.having = some w → ∀ name, .named name ∉ w.operands

namespace Engine

variable (config : Config) (c : Catalog) (parameters : Parameters) (text : String)

/-- **No literal is lost in the JSON of a query**, unless it is read as a double that is not finite: in WHERE and in
HAVING each literal that is compared shows as a boolean, a number or a text, and there are no nulls but for doubles that
are not finite. -/
theorem compile_scalars {q : Statement} (hq : read config text = .ok q) (plain : q.NoParameters) {r : QueryResult Json}
    (h : compile config c parameters JsonQuery.factory text = .ok r) :
    Condition.ShownIn c r.entity q ((q.filter.map Condition.places).getD []) r.query ∧
      Option.Rel (fun w j => Condition.ShownIn c r.entity q w.places j) q.having r.having := by
  rw [compile_replay] at h
  obtain ⟨record, hrecord, rfl⟩ := map_eq_ok.1 h
  rw [compile_of_read config c parameters Trace.factory text hq] at hrecord
  obtain ⟨s, resolved, rendered⟩ := bind_eq_ok.1 hrecord
  obtain ⟨filter, having⟩ := render_resolve_records resolved rendered
  refine ⟨recordIfGiven_shown (fun w hw => plain w (.inl hw)) filter, ?_⟩
  show Option.Rel _ q.having (record.having.map (Trace.replay JsonQuery.factory))
  have each := fun w hw => plain w (.inr hw)
  generalize q.having = written, record.having = made at having each ⊢
  cases having with
  | none => exact .none
  | some h => exact .some (record_shown (each _ rfl) h)

/-- hikes of two difficulties, of an average without an upper bound -/
def averageHikes : Statement where
  select := none
  sources := [⟨"Hike", some "h"⟩]
  joins := []
  filter := some (.among (.path ⟨["h", "difficulty"], none⟩) [.literal (.number "1"), .literal (.number "2")] false)
  groupBy := none
  having := some (.between (.aggregate ⟨.avg, false, ⟨["h", "difficulty"], none⟩⟩) (.literal (.number "1.5"))
    (.literal (.string "infinity")) false)
  orderBy := none

/-- its text -/
def averageHikesText : String :=
  "FROM Hike h WHERE h.difficulty IN (1, 2) HAVING AVG(h.difficulty) BETWEEN 1.5 AND 'infinity'"

theorem read_averageHikes : read .standard averageHikesText = .ok averageHikes :=
  toOption_eq_some.1 (by decide +kernel)

theorem averageHikes_noParameters : averageHikes.NoParameters := by
  rintro w (⟨⟨⟩⟩ | ⟨⟨⟩⟩) name named
  · simp [Condition.operands] at named
  · simp [Condition.operands] at named

theorem compile_averageHikes_scalars : ∃ r, compile .standard hikes [] JsonQuery.factory averageHikesText = .ok r ∧
    Condition.ShownIn hikes r.entity averageHikes ((averageHikes.filter.map Condition.places).getD []) r.query ∧
      Option.Rel (fun w j => Condition.ShownIn hikes r.entity averageHikes w.places j) averageHikes.having r.having := by
  obtain ⟨r, hr⟩ := exists_of_isOk
    (show (compile .standard hikes [] JsonQuery.factory averageHikesText).isOk = true by decide +kernel)
  exact ⟨r, hr, compile_scalars .standard hikes [] _ read_averageHikes averageHikes_noParameters hr⟩

/-- No parameter is named, and the upper bound of the average is null in what is compiled. -/
theorem compile_averageHikes_null : read .standard averageHikesText = .ok averageHikes ∧ averageHikes.NoParameters ∧
    ∃ r, compile .standard hikes [] JsonQuery.factory averageHikesText = .ok r ∧ ∃ j ∈ r.having, .null ∈ j.atoms := by
  refine ⟨read_averageHikes, averageHikes_noParameters, ?_⟩
  have null : (compile .standard hikes [] JsonQuery.factory averageHikesText).toOption.any
      (fun r => r.having.any fun j => j.atoms.any (· matches .null)) = true := by
    decide +kernel
  simp only [Option.any_eq_true, List.any_eq_true] at null
  obtain ⟨r, hr, j, hj, atom, hatom, form⟩ := null
  refine ⟨r, toOption_eq_some.1 hr, j, hj, ?_⟩
  split at form
  · exact hatom
  · cases form

end Engine

end EntitySearch
