/-
Queries with places for values.

A `Form` is the record of a query in which some of the values and patterns are left open: a `Slot` holds a value, or the
name of the parameter whose value belongs there. `Form.fill` puts values in and changes nothing else.

`Render.outline` makes the form of a condition in which every parameter stands for its own name. Nothing in a query but
what stands in the slots depends on the values of parameters (`query_filled`): whatever values are given to the names,
the query of the condition is its form filled with them, and where there is no form the fault is the same.
-/
import EntitySearch.Proofs.Render.Record
import EntitySearch.Proofs.Resolve.Traverse

namespace EntitySearch

/-- a place for a value: the value that stands there, or the parameter whose value does -/
inductive Slot where
  | value (v : Value)
  | parameter (name : String)

/-- a test with places for its values; the text of the value in place of a pattern is the pattern -/
inductive TestForm where
  | compare (property : String) (relation : Relation) (value : Slot)
  | range (property : String) (lower upper : Slot)
  | among (property : String) (values : List Slot)
  | like (property : String) (pattern : Slot) (escape : Option Char)
  | isNull (property : String)

/-- a record with places for values -/
inductive Form where
  | matchAll (entity : String)
  | leaf (entity : String) (aggregation : Option Aggregation) (test : TestForm)
  | and (must mustNot : List Form)
  | or (parts : List Form)
  | not (part : Form)

variable (given : String → Value)

def Slot.fill : Slot → Value
  | .value v => v
  | .parameter name => given name

def TestForm.fill : TestForm → Test
  | .compare property r value => .compare property r (value.fill given)
  | .range property lower upper => .range property (lower.fill given) (upper.fill given)
  | .among property values => .among property (values.map (Slot.fill given))
  | .like property pattern escape => .like property (pattern.fill given).text escape
  | .isNull property => .isNull property

namespace Form

mutual

/-- the record with values put in their places -/
def fill : Form → Trace
  | .matchAll entity => .matchAll entity
  | .leaf entity aggregation test => .leaf entity aggregation (test.fill given)
  | .and must mustNot => .and (fillAll must) (fillAll mustNot)
  | .or parts => .or (fillAll parts)
  | .not part => .not (fill part)

def fillAll : List Form → List Trace
  | [] => []
  | part :: rest => fill part :: fillAll rest

end

/-- puts a part before the parts of an And, as in records -/
def before (part : Form) (parts : List Form × List Form) : List Form × List Form :=
  match part with
  | .not inner => (parts.1, inner :: parts.2)
  | part => (part :: parts.1, parts.2)

/-- the And of parts -/
def conj (parts : List Form) : Form :=
  let (must, mustNot) := parts.foldr before ([], [])
  .and must mustNot

/-- a test of a subject, negated or not -/
def ofTest (entity : String) (negated : Bool) (s : Subject) (t : TestForm) : Form :=
  if negated then .not (.leaf entity s.aggregation t) else .leaf entity s.aggregation t

theorem fill_before (part : Form) (parts : List Form × List Form) :
    (part.fill given).before (fillAll given parts.1, fillAll given parts.2) =
      (fillAll given (part.before parts).1, fillAll given (part.before parts).2) := by
  cases part <;> simp [fill, fillAll, Trace.before, before]

theorem fill_conj (parts : List Form) : (conj parts).fill given = .conj (fillAll given parts) := by
  have split : (fillAll given parts).foldr Trace.before ([], []) =
      (fillAll given (parts.foldr before ([], [])).1, fillAll given (parts.foldr before ([], [])).2) := by
    induction parts with
    | nil => rfl
    | cons part rest ih => rw [fillAll, List.foldr_cons, ih, fill_before, List.foldr_cons]
  rw [conj, Trace.conj, split, fill]

theorem fill_ofTest (entity : String) (negated : Bool) (s : Subject) (t : TestForm) :
    (ofTest entity negated s t).fill given = .ofPositive entity negated (s.aggregation, t.fill given) := by
  cases negated <;> simp [ofTest, Trace.ofPositive, fill]

end Form

/-! ## The form of a condition -/

/-- the place for a value beside a subject; a parameter has its own name for a value -/
def Slot.beside (convert : Conversion) (s : Subject) : Comparand → Except QueryError Slot
  | .literal text => (convert s (.literal text)).map .value
  | .parameter name => .ok (.parameter name.text)

/-- the place for a pattern -/
def Slot.ofPattern : Comparand → Slot
  | .literal text => .value (.string text)
  | .parameter name => .parameter name.text

namespace Render

variable (convert : Conversion) (subject : SubjectOf) (entity : String)

mutual

/-- the form of a condition whose parameters have their own names for values, or the first fault in it -/
def outline : Condition ResolvedOperand → Except QueryError Form
  | .and cs => do .ok (.conj (← outlines cs))
  | .or cs => do .ok (.or (← outlines cs))
  | .not c => do .ok (.not (← outline c))
  | .compare r left right => do
    let (s, r, value) ← orient subject r left right
    let value ← Slot.beside convert s value
    .ok (.ofTest entity false s (.compare s.property r value))
  | .between operand lower upper negated => do
    let s ← requireSubject subject operand
    let lower ← operand.comparand lower
    let upper ← operand.comparand upper
    let lower ← Slot.beside convert s lower
    let upper ← Slot.beside convert s upper
    .ok (.ofTest entity negated s (.range s.property lower upper))
  | .among operand values negated => do
    let s ← requireSubject subject operand
    let values ← values.mapM operand.comparand
    let values ← values.mapM (Slot.beside convert s)
    .ok (.ofTest entity negated s (.among s.property values))
  | .like operand pattern escape negated => do
    let s ← requireSubject subject operand
    let pattern ← operand.comparand pattern
    .ok (.ofTest entity negated s (.like s.property (.ofPattern pattern) escape))
  | .isNull operand negated => do
    let s ← requireSubject subject operand
    .ok (.ofTest entity negated s (.isNull s.property))

def outlines : List (Condition ResolvedOperand) → Except QueryError (List Form)
  | [] => .ok []
  | c :: rest => do .ok ((← outline c) :: (← outlines rest))

end

end Render

/-! ## Values put in -/

/-- the value of a parameter in place of its name -/
def Comparand.fill : Comparand → Comparand
  | .literal text => .literal text
  | .parameter name => .parameter (given name.text)

/-- the parameter with the value given to the name that it had for one -/
def ResolvedOperand.fill : ResolvedOperand → ResolvedOperand
  | .parameter name value => .parameter name (given value.text)
  | o => o

namespace ResolvedOperand

@[simp] theorem text_fill (o : ResolvedOperand) : (o.fill given).text = o.text := by
  cases o <;> rfl

theorem comparand_fill (property operand : ResolvedOperand) :
    (property.fill given).comparand (operand.fill given) = (property.comparand operand).map (Comparand.fill given) := by
  cases operand with
  | literal text => rfl
  | parameter name value => rfl
  | path p =>
    show (property.fill given).comparand (.path p) = _
    simp only [comparand, text_fill]
    rfl
  | aggregate a =>
    show (property.fill given).comparand (.aggregate a) = _
    simp only [comparand, text_fill]
    rfl

end ResolvedOperand

namespace Render

/-- what an operand is about does not depend on the value of a parameter -/
def IgnoresValues (subject : SubjectOf) : Prop := ∀ (given : String → Value) o, subject (o.fill given) = subject o

theorem propertySubject_ignoresValues (t : AliasTable) : IgnoresValues (ResolvedOperand.propertySubject t) := by
  intro given o
  cases o <;> rfl

theorem aggregateSubject_ignoresValues (t : AliasTable) : IgnoresValues (ResolvedOperand.aggregateSubject t) := by
  intro given o
  cases o <;> rfl

variable {subject : SubjectOf} (ignores : IgnoresValues subject)

section

include ignores

theorem requireSubject_fill (o : ResolvedOperand) :
    requireSubject subject (o.fill given) = requireSubject subject o := by
  rw [requireSubject, requireSubject, ignores]

theorem orient_fill (r : Relation) (left right : ResolvedOperand) :
    orient subject r (left.fill given) (right.fill given) =
      (orient subject r left right).map fun (s, r, value) => (s, r, value.fill given) := by
  simp only [orient, ignores given, ResolvedOperand.comparand_fill, ResolvedOperand.text_fill]
  cases subject left with
  | error e => rfl
  | ok l =>
    cases subject right with
    | error e => rfl
    | ok m =>
      cases l with
      | none =>
        cases m with
        | none => rfl
        | some s => cases right.comparand left <;> rfl
      | some s =>
        cases m with
        | none => cases left.comparand right <;> rfl
        | some s' => rfl

end

variable {c : Catalog} {entity : String}

/-- the value beside a subject is that of its slot, filled -/
theorem beside_fill (s : Subject) (v : Comparand) :
    Site.convert ⟨c, entity, Trace.factory⟩ s (v.fill given) =
      (Slot.beside (Site.convert ⟨c, entity, Trace.factory⟩) s v).map (Slot.fill given) := by
  cases v with
  | parameter name => rfl
  | literal text =>
    show Site.convert ⟨c, entity, Trace.factory⟩ s (.literal text) = _
    simp only [Slot.beside]
    cases Site.convert ⟨c, entity, Trace.factory⟩ s (.literal text) <;> rfl

theorem pattern_fill (v : Comparand) : (v.fill given).pattern = ((Slot.ofPattern v).fill given).text := by
  cases v <;> rfl

theorem comparands_fill (property : ResolvedOperand) (operands : List ResolvedOperand) :
    (operands.map (ResolvedOperand.fill given)).mapM (property.fill given).comparand =
      (operands.mapM property.comparand).map (List.map (Comparand.fill given)) := by
  rw [List.mapM_map]
  exact mapM_map fun o _ => ResolvedOperand.comparand_fill given property o

theorem besides_fill (s : Subject) (vs : List Comparand) :
    (vs.map (Comparand.fill given)).mapM (Site.convert ⟨c, entity, Trace.factory⟩ s) =
      (vs.mapM (Slot.beside (Site.convert ⟨c, entity, Trace.factory⟩) s)).map (List.map (Slot.fill given)) := by
  rw [List.mapM_map]
  exact mapM_map fun v _ => beside_fill given s v

/-- the record is the form, filled -/
def Filled (t : Trace) (form : Form) : Prop := t = form.fill given

theorem filled_ofTest (negated : Bool) (s : Subject) {test : Test} {form : TestForm} (h : test = form.fill given) :
    Filled given (.ofPositive entity negated (s.aggregation, test)) (.ofTest entity negated s form) := by
  rw [Filled, Form.fill_ofTest, h]

section

include ignores

theorem compare_outline (r : Relation) (left right : ResolvedOperand) :
    SameOutcome (Filled given)
      (record (Site.convert ⟨c, entity, Trace.factory⟩) subject entity
        (.compare r (left.fill given) (right.fill given)))
      (outline (Site.convert ⟨c, entity, Trace.factory⟩) subject entity (.compare r left right)) := by
  simp only [record, outline, Atom.compare, bind_assoc, ok_bind]
  refine .bind_map (orient_fill given ignores r left right) fun oriented => ?_
  obtain ⟨s, r, v⟩ := oriented
  refine .bind_map (beside_fill given s v) fun slot => ?_
  exact .ok (filled_ofTest given false s rfl)

theorem between_outline (operand lower upper : ResolvedOperand) (negated : Bool) :
    SameOutcome (Filled given)
      (record (Site.convert ⟨c, entity, Trace.factory⟩) subject entity
        (.between (operand.fill given) (lower.fill given) (upper.fill given) negated))
      (outline (Site.convert ⟨c, entity, Trace.factory⟩) subject entity (.between operand lower upper negated)) := by
  simp only [record, outline, Atom.between, bind_assoc, ok_bind, requireSubject_fill given ignores]
  refine .bind_same _ fun s => ?_
  refine .bind_map (ResolvedOperand.comparand_fill given operand lower) fun low => ?_
  refine .bind_map (ResolvedOperand.comparand_fill given operand upper) fun high => ?_
  refine .bind_map (beside_fill given s low) fun l => ?_
  refine .bind_map (beside_fill given s high) fun u => ?_
  exact .ok (filled_ofTest given negated s rfl)

theorem among_outline (operand : ResolvedOperand) (values : List ResolvedOperand) (negated : Bool) :
    SameOutcome (Filled given)
      (record (Site.convert ⟨c, entity, Trace.factory⟩) subject entity
        (.among (operand.fill given) (values.map (ResolvedOperand.fill given)) negated))
      (outline (Site.convert ⟨c, entity, Trace.factory⟩) subject entity (.among operand values negated)) := by
  simp only [record, outline, Atom.among, bind_assoc, ok_bind, requireSubject_fill given ignores]
  refine .bind_same _ fun s => ?_
  refine .bind_map (comparands_fill given operand values) fun vs => ?_
  refine .bind_map (besides_fill given s vs) fun slots => ?_
  exact .ok (filled_ofTest given negated s rfl)

theorem like_outline (operand pattern : ResolvedOperand) (escape : Option Char) (negated : Bool) :
    SameOutcome (Filled given)
      (record (Site.convert ⟨c, entity, Trace.factory⟩) subject entity
        (.like (operand.fill given) (pattern.fill given) escape negated))
      (outline (Site.convert ⟨c, entity, Trace.factory⟩) subject entity (.like operand pattern escape negated)) := by
  simp only [record, outline, Atom.like, bind_assoc, ok_bind, requireSubject_fill given ignores]
  refine .bind_same _ fun s => ?_
  refine .bind_map (ResolvedOperand.comparand_fill given operand pattern) fun v => ?_
  refine .ok (filled_ofTest given negated s ?_)
  rw [pattern_fill]
  rfl

theorem isNull_outline (operand : ResolvedOperand) (negated : Bool) :
    SameOutcome (Filled given)
      (record (Site.convert ⟨c, entity, Trace.factory⟩) subject entity (.isNull (operand.fill given) negated))
      (outline (Site.convert ⟨c, entity, Trace.factory⟩) subject entity (.isNull operand negated)) := by
  simp only [record, outline, Atom.isNull, bind_assoc, ok_bind, requireSubject_fill given ignores]
  exact .bind_same _ fun s => .ok (filled_ofTest given negated s rfl)

end

mutual

theorem record_filled (ignores : IgnoresValues subject) : ∀ w : Condition ResolvedOperand,
    SameOutcome (Filled given)
      (record (Site.convert ⟨c, entity, Trace.factory⟩) subject entity (w.map (ResolvedOperand.fill given)))
      (outline (Site.convert ⟨c, entity, Trace.factory⟩) subject entity w)
  | .and cs => (records_filled ignores cs).bind fun _ parts same => .ok (same ▸ (Form.fill_conj given parts).symm)
  | .or cs => (records_filled ignores cs).bind fun _ _ same => .ok (congrArg Trace.or same)
  | .not w => (record_filled ignores w).bind fun _ _ same => .ok (congrArg Trace.not same)
  | .compare r left right => compare_outline given ignores r left right
  | .between operand lower upper negated => between_outline given ignores operand lower upper negated
  | .among operand values negated => among_outline given ignores operand values negated
  | .like operand pattern escape negated => like_outline given ignores operand pattern escape negated
  | .isNull operand negated => isNull_outline given ignores operand negated

theorem records_filled (ignores : IgnoresValues subject) : ∀ ws : List (Condition ResolvedOperand),
    SameOutcome (fun ts forms => ts = Form.fillAll given forms)
      (records (Site.convert ⟨c, entity, Trace.factory⟩) subject entity
        (Condition.mapAll (ResolvedOperand.fill given) ws))
      (outlines (Site.convert ⟨c, entity, Trace.factory⟩) subject entity ws)
  | [] => .ok rfl
  | w :: rest => (record_filled ignores w).bind fun _ _ same =>
      (records_filled ignores rest).bind fun _ _ sames => .ok (congrArg₂ List.cons same sames)

end

/-- **The query of a condition is its form, filled**, whatever values are given to the parameters; and without a form
there is the same fault. -/
theorem query_filled (ignores : IgnoresValues subject) (w : Condition ResolvedOperand) :
    query ⟨c, entity, Trace.factory⟩ subject (some (w.map (ResolvedOperand.fill given))) =
      (outline (Site.convert ⟨c, entity, Trace.factory⟩) subject entity w).map (Form.fill given) := by
  rw [query_record]
  exact SameOutcome.iff_map.1 (record_filled given ignores w)

end Render

end EntitySearch
