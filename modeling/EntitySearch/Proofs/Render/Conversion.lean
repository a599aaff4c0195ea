/-
Literals converted to the kind of their place.

The kind of a place follows from what stands beside it: a count is compared with whole numbers, an average with doubles,
and everything else with values of the property's own kind (`Catalog.kindBeside`). A literal becomes a value of that
kind or a fault that names the property (`convertLiteral_eq`), and where the kind is a whole number, the value is the
integer that the text of the literal denotes (`convert_long_iff`). What stands on the two sides of a test is converted
from left to right, after all of it is looked at, so the fault of a test is that of a value up to the first one that has
none, or that of an operand that is no value (`sides_fault`).
-/
import EntitySearch.Proofs.Number.Long
import EntitySearch.Proofs.Render.Leaves

namespace EntitySearch

/-! ## Kinds -/

/-- the kind of the values with which a property, or an aggregate of one, is compared -/
def Catalog.kindBeside (c : Catalog) (entity : String) (s : Subject) : Option Kind :=
  match s.aggregation with
  | some .count => some .long
  | some .countDistinct => some .long
  | some .avg => some .double
  | _ => (c.property entity s.path).map (·.kind)

/-- what a fault of a value names -/
def Subject.shown (s : Subject) : String :=
  match s.aggregation with
  | some .count => Aggregation.count.applied s.property
  | some .countDistinct => Aggregation.countDistinct.applied s.property
  | some .avg => Aggregation.avg.applied s.property
  | _ => s.property

namespace Kind

/-- a converted value is of the kind -/
theorem kind_of_convert {kind : Kind} {literal : String} {v : Value} (h : kind.convert literal = .ok v) :
    v.kind = kind := by
  cases kind with
  | string =>
    cases h
    rfl
  | embedded => cases h
  | _ =>
    simp only [convert] at h
    split at h <;> cases h
    rfl

/-- **A whole number is the integer that its text denotes**, and there is one unless that is out of range. -/
theorem convert_long_iff {literal : String} {v : Value} : Kind.long.convert literal = .ok v ↔
    ∃ n, v = .long n ∧ Number.Denotes literal n ∧ Number.minLong ≤ n ∧ n ≤ Number.maxLong := by
  simp only [convert, ← Number.readLong_trim]
  cases Number.readLong (Text.trim literal).toList with
  | none => simp
  | some n => simp [eq_comm]

end Kind

namespace Render

variable {Q : Type} {site : Site Q} {s : Subject}

theorem convertAs_eq (kind : Kind) (f : Aggregation) (path : List String) (literal : String) :
    Site.convertAs kind f path literal =
      (kind.convert literal).mapError fun _ => .invalidValue (f.applied (Text.dotted path)) literal kind.name := by
  unfold Site.convertAs
  cases kind.convert literal <;> rfl

theorem catalog_convert_eq {c : Catalog} {entity : String} {path : List String} {kind : Kind}
    (h : (c.property entity path).map (·.kind) = some kind) (literal : String) :
    c.convert entity path literal =
      (kind.convert literal).mapError fun _ => .invalidValue (Text.dotted path) literal kind.name := by
  obtain ⟨p, hp, rfl⟩ := Option.map_eq_some_iff.1 h
  simp only [Catalog.convert, hp]
  cases p.kind.convert literal <;> rfl

/-- **A literal becomes a value of the kind of its place**, or is not valid there. -/
theorem convertLiteral_eq {kind : Kind} (h : site.catalog.kindBeside site.entity s = some kind) (literal : String) :
    site.convertLiteral s literal =
      (kind.convert literal).mapError fun _ => .invalidValue s.shown literal kind.name := by
  obtain ⟨aggregation, path⟩ := s
  cases aggregation with
  | none => exact catalog_convert_eq h literal
  | some f =>
    cases f with
    | count =>
      cases h
      exact convertAs_eq .long .count path literal
    | countDistinct =>
      cases h
      exact convertAs_eq .long .countDistinct path literal
    | avg =>
      cases h
      exact convertAs_eq .double .avg path literal
    | _ => exact catalog_convert_eq h literal

/-- where a literal is converted there is a kind, that of the value -/
theorem kindBeside_of_convert {literal : String} {v : Value} (h : site.convert s (.literal literal) = .ok v) :
    site.catalog.kindBeside site.entity s = some v.kind ∧ v.kind.convert literal = .ok v := by
  have converted : site.convertLiteral s literal = .ok v := by
    simp only [Site.convert] at h
    split at h
    · rename_i hv
      cases h
      exact hv
    · cases h
  have known : ∃ kind, site.catalog.kindBeside site.entity s = some kind := by
    obtain ⟨aggregation, path⟩ := s
    have own (h : site.catalog.convert site.entity path literal = .ok v) :
        ∃ kind, (site.catalog.property site.entity path).map (·.kind) = some kind := by
      unfold Catalog.convert at h
      split at h
      · cases h
      · rename_i p hp
        exact ⟨p.kind, by rw [hp]; rfl⟩
    cases aggregation with
    | none => exact own converted
    | some f =>
      cases f with
      | count => exact ⟨_, rfl⟩
      | countDistinct => exact ⟨_, rfl⟩
      | avg => exact ⟨_, rfl⟩
      | _ => exact own converted
  obtain ⟨kind, hkind⟩ := known
  rw [convertLiteral_eq hkind] at converted
  cases hv : kind.convert literal with
  | error e =>
    rw [hv] at converted
    cases converted
  | ok w =>
    rw [hv] at converted
    cases converted
    obtain rfl := Kind.kind_of_convert hv
    exact ⟨hkind, hv⟩

theorem convert_literal_iff {literal : String} {v : Value} : site.convert s (.literal literal) = .ok v ↔
    site.catalog.kindBeside site.entity s = some v.kind ∧ v.kind.convert literal = .ok v := by
  refine ⟨kindBeside_of_convert, fun ⟨known, converted⟩ => ?_⟩
  simp only [Site.convert, convertLiteral_eq known, converted, Except.mapError]

/-- the fault of a literal that is no whole number where one belongs -/
theorem convert_long_fails {literal : String} (long : site.catalog.kindBeside site.entity s = some .long)
    (none_denoted : ∀ n, ¬(Number.Denotes literal n ∧ Number.minLong ≤ n ∧ n ≤ Number.maxLong)) :
    site.convert s (.literal literal) = .error (.schema (.invalidValue s.shown literal Kind.long.name)) := by
  have fails : ∃ e, Kind.long.convert literal = .error e := by
    cases hv : Kind.long.convert literal with
    | error e => exact ⟨e, rfl⟩
    | ok v =>
      obtain ⟨n, -, denoted⟩ := Kind.convert_long_iff.1 hv
      exact absurd denoted (none_denoted n)
  obtain ⟨e, he⟩ := fails
  simp only [Site.convert, convertLiteral_eq long, he, Except.mapError]

/-- what fails to be converted is a literal that is no whole number, where one belongs -/
theorem literal_of_fault {v : Comparand} {e : QueryError} (long : site.catalog.kindBeside site.entity s = some .long)
    (h : site.convert s v = .error e) : ∃ literal, v = .literal literal ∧
      e = .schema (.invalidValue s.shown literal Kind.long.name) ∧
      ∀ n, ¬(Number.Denotes literal n ∧ Number.minLong ≤ n ∧ n ≤ Number.maxLong) := by
  cases v with
  | parameter value => cases h
  | literal literal =>
    have none_denoted (n : ℤ) : ¬(Number.Denotes literal n ∧ Number.minLong ≤ n ∧ n ≤ Number.maxLong) := by
      intro denoted
      have converted := Kind.convert_long_iff.2 ⟨n, rfl, denoted⟩
      simp only [Site.convert, convertLiteral_eq long, converted, Except.mapError] at h
      cases h
    rw [convert_long_fails long none_denoted] at h
    cases h
    exact ⟨literal, rfl, rfl, none_denoted⟩

end Render

/-! ## The sides of a test -/

namespace Condition

variable {α β ε : Type}

/-- the operand of a test, with the values that it is compared with; a comparison may be read from either side -/
def sides : Condition α → List (α × List α)
  | .compare _ left right => [(left, [right]), (right, [left])]
  | .between operand lower upper _ => [(operand, [lower, upper])]
  | .among operand values _ => [(operand, values)]
  | .and _ | .or _ | .not _ | .like .. | .isNull .. => []

/-- the sides of a test are those of the written one, resolved -/
theorem traverse_sides {f : α → Except ε β} {o : α} {vs : List α} : ∀ {test : Condition α} {d : Condition β},
    traverse f test = .ok d → (o, vs) ∈ test.sides → ∃ o' vs', f o = .ok o' ∧ vs.mapM f = .ok vs' ∧ (o', vs') ∈ d.sides
  | .compare r left right, d, h, hs => by
    simp only [traverse, bind_eq_ok, Except.ok.injEq] at h
    obtain ⟨l, hl, r', hr, rfl⟩ := h
    simp only [sides, List.mem_cons, Prod.mk.injEq, List.not_mem_nil, or_false] at hs
    rcases hs with ⟨rfl, rfl⟩ | ⟨rfl, rfl⟩
    · exact ⟨l, [r'], hl, mapM_eq_ok.2 (.cons hr .nil), by simp [sides]⟩
    · exact ⟨r', [l], hr, mapM_eq_ok.2 (.cons hl .nil), by simp [sides]⟩
  | .between operand lower upper negated, d, h, hs => by
    simp only [traverse, bind_eq_ok, Except.ok.injEq] at h
    obtain ⟨o', ho, l, hl, u, hu, rfl⟩ := h
    simp only [sides, List.mem_singleton, Prod.mk.injEq] at hs
    obtain ⟨rfl, rfl⟩ := hs
    exact ⟨o', [l, u], ho, mapM_eq_ok.2 (.cons hl (.cons hu .nil)), by simp [sides]⟩
  | .among operand values negated, d, h, hs => by
    simp only [traverse, bind_eq_ok, Except.ok.injEq] at h
    obtain ⟨o', ho, vs', hvs, rfl⟩ := h
    simp only [sides, List.mem_singleton, Prod.mk.injEq] at hs
    obtain ⟨rfl, rfl⟩ := hs
    exact ⟨o', vs', ho, hvs, by simp [sides]⟩
  | .and _, _, _, hs => nomatch hs
  | .or _, _, _, hs => nomatch hs
  | .not _, _, _, hs => nomatch hs
  | .like .., _, _, hs => nomatch hs
  | .isNull .., _, _, hs => nomatch hs

end Condition

namespace Render

variable {convert : Conversion} {subject : SubjectOf} {entity : String} {o : ResolvedOperand}
  {vs before after : List ResolvedOperand} {s : Subject}

/-- the values on a side: all of them are looked at, and then they are converted one after the other -/
def sideValues (convert : Conversion) (s : Subject) (o : ResolvedOperand) (vs : List ResolvedOperand) :
    Except QueryError (List Value) :=
  vs.mapM o.comparand >>= fun ws => ws.mapM (convert s)

/-- **A test fails as the values on its side do**, if one of them is a value at all. -/
theorem record_sides (passes : PassesValues subject) (hs : subject o = .ok (some s))
    (value : ∃ v ∈ vs, v.value? ≠ none) : ∀ {d : Condition ResolvedOperand}, (o, vs) ∈ d.sides →
      SameFault (record convert subject entity d) (sideValues convert s o vs)
  | .compare r left right, h => by
    obtain ⟨v, hv, value⟩ := value
    obtain ⟨w, hw⟩ := Option.ne_none_iff_exists'.1 value
    have other : subject v = .ok none := passes hw
    simp only [Condition.sides, List.mem_cons, Prod.mk.injEq, List.not_mem_nil, or_false] at h
    -- the value is on the other side, so the comparison is turned round exactly if the property is on the right
    rcases h with ⟨rfl, rfl⟩ | ⟨rfl, rfl⟩
    all_goals
      obtain rfl := List.mem_singleton.1 hv
      simp only [record, Atom.compare, orient, hs, other, sideValues, List.mapM_cons, List.mapM_nil, bind_assoc, pure,
        Except.pure, ok_bind]
      exact .bind_same _ fun _ => .bind_same _ fun _ => .ok trivial
  | .between operand lower upper negated, h => by
    simp only [Condition.sides, List.mem_singleton, Prod.mk.injEq] at h
    obtain ⟨rfl, rfl⟩ := h
    simp only [record, Atom.between, requireSubject_of_subject hs, sideValues, List.mapM_cons, List.mapM_nil,
      bind_assoc, pure, Except.pure, ok_bind]
    exact .bind_same _ fun _ => .bind_same _ fun _ => .bind_same _ fun _ => .bind_same _ fun _ => .ok trivial
  | .among operand values negated, h => by
    simp only [Condition.sides, List.mem_singleton, Prod.mk.injEq] at h
    obtain ⟨rfl, rfl⟩ := h
    simp only [record, Atom.among, requireSubject_of_subject hs, sideValues, bind_assoc, ok_bind]
    exact .bind_same _ fun _ => (SameFault.refl _).made _
  | .and _, h => nomatch h
  | .or _, h => nomatch h
  | .not _, h => nomatch h
  | .like .., h => nomatch h
  | .isNull .., h => nomatch h

theorem comparand_of_fault {property operand : ResolvedOperand} {e : QueryError}
    (h : property.comparand operand = .error e) :
    operand.value? = none ∧ e = .unsupported (.propertyComparison property.text operand.text) := by
  cases operand with
  | path p =>
    cases h
    exact ⟨rfl, rfl⟩
  | aggregate a =>
    cases h
    exact ⟨rfl, rfl⟩
  | literal text => cases h
  | parameter name value => cases h

/-- why the values on a side fail: one of them is no value, or one of those up to the first bad one is not converted -/
inductive SideFault (convert : Conversion) (s : Subject) (o : ResolvedOperand) (before after : List ResolvedOperand)
    (bad : QueryError) : QueryError → Prop where
  | bad : SideFault convert s o before after bad bad
  | operand {v : ResolvedOperand} (beside : v ∈ before ++ after) (no_value : v.value? = none) :
    SideFault convert s o before after bad (.unsupported (.propertyComparison o.text v.text))
  | earlier {v : ResolvedOperand} {w : Comparand} {e : QueryError} (before_bad : v ∈ before) (value : v.value? = some w)
    (fault : convert s w = .error e) : SideFault convert s o before after bad e

theorem sides_fault {v : ResolvedOperand} {w : Comparand} {bad : QueryError} (value : v.value? = some w)
    (fault : convert s w = .error bad) :
    ∃ e, sideValues convert s o (before ++ v :: after) = .error e ∧ SideFault convert s o before after bad e := by
  unfold sideValues
  cases hws : (before ++ v :: after).mapM o.comparand with
  | error e =>
    obtain ⟨u, hu, he⟩ := mapM_eq_error hws
    obtain ⟨no_value, rfl⟩ := comparand_of_fault he
    refine ⟨_, rfl, .operand ?_ no_value⟩
    have other : u ≠ v := by
      rintro rfl
      rw [no_value] at value
      cases value
    simpa [other] using hu
  | ok ws =>
    simp only [List.mapM_append, List.mapM_cons, bind_eq_ok, pure, Except.pure, Except.ok.injEq] at hws
    obtain ⟨front, hfront, _, ⟨w', hw', rest, -, rfl⟩, rfl⟩ := hws
    cases (value.symm.trans (ResolvedOperand.value?_of_comparand hw'))
    rw [ok_bind, List.mapM_append]
    cases hx : front.mapM (convert s) with
    | error e =>
      obtain ⟨x, hmem, he⟩ := mapM_eq_error hx
      obtain ⟨u, hu, hux⟩ := forall₂_right (mapM_eq_ok.1 hfront) x hmem
      exact ⟨e, rfl, .earlier hu (ResolvedOperand.value?_of_comparand hux) he⟩
    | ok xs =>
      refine ⟨bad, ?_, .bad⟩
      rw [ok_bind, List.mapM_cons, fault]
      rfl

end Render

end EntitySearch
