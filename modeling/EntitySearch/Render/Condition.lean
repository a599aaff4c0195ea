/-
Conditions turned into predicates.

A test needs one side that is a property, or an aggregate in HAVING, and otherwise literals and parameters. A
comparison with the property on the right is turned round. A negated test is put into a scope of its own.
-/
import EntitySearch.Predicate.Builder
import EntitySearch.Resolve.Resolved

namespace EntitySearch

namespace AliasTable

/-- the canonical names of a path, or why there are none -/
def canonicalNames (t : AliasTable) (path : Path) : Except QueryError (List String) :=
  match t.canonical path with
  | .ok names => .ok names
  | .error e => .error (.aliasing e)

end AliasTable

namespace ResolvedOperand

/-- what an operand of WHERE is about, if it is no value -/
def propertySubject (t : AliasTable) : ResolvedOperand → Except QueryError (Option Subject)
  | .path p => do .ok (some ⟨none, ← t.canonicalNames p⟩)
  | .aggregate a => .error (.unsupported (.aggregateOutsideHaving a.text))
  | .literal _ => .ok none
  | .parameter .. => .ok none

/-- what an operand of HAVING is about, if it is no value -/
def aggregateSubject (t : AliasTable) : ResolvedOperand → Except QueryError (Option Subject)
  | .aggregate a => do .ok (some ⟨some a.function, ← t.canonicalNames a.path⟩)
  | .path p => .error (.unsupported (.plainPropertyInHaving p.text))
  | .literal _ => .ok none
  | .parameter .. => .ok none

/-- what the other side of a test is compared with -/
def comparand (property operand : ResolvedOperand) : Except QueryError Comparand :=
  match operand with
  | .literal text => .ok (.literal text)
  | .parameter _ value => .ok (.parameter value)
  | _ => .error (.unsupported (.propertyComparison property.text operand.text))

end ResolvedOperand

namespace Render

variable {Q : Type}

/-- how the subject of an operand is found -/
abbrev SubjectOf := ResolvedOperand → Except QueryError (Option Subject)

/-- the subject of a test that has its property on the left -/
def requireSubject (subject : SubjectOf) (operand : ResolvedOperand) : Except QueryError Subject := do
  match ← subject operand with
  | some s => .ok s
  | none => .error (.unsupported .constantPredicate)

/-- the parts of a comparison with its property on the left -/
def orient (subject : SubjectOf) (r : Relation) (left right : ResolvedOperand) :
    Except QueryError (Subject × Relation × Comparand) := do
  match ← subject left, ← subject right with
  | some s, none => .ok (s, r, ← left.comparand right)
  | none, some s => .ok (s, r.mirrored, ← right.comparand left)
  | some _, some _ => .error (.unsupported (.propertyComparison left.text right.text))
  | none, none => .error (.unsupported .constantPredicate)

/-- the operation inside a negation if it is negated -/
def negatedIf (negated : Bool) (add : Building Q Unit) : Building Q Unit :=
  if negated then do
    Draft.push (.not none)
    add
    Draft.pop
  else add

mutual

/-- adds a condition under the innermost scope -/
def condition (site : Site Q) (subject : SubjectOf) : Condition ResolvedOperand → Building Q Unit
  | .and cs => do
    Draft.push (.and [])
    conditions site subject cs
    Draft.pop
  | .or cs => do
    Draft.push (.or [])
    conditions site subject cs
    Draft.pop
  | .not c => do
    Draft.push (.not none)
    condition site subject c
    Draft.pop
  | .compare r left right => do
    let (s, r, value) ← MonadExcept.ofExcept (orient subject r left right)
    site.testRelation s r value
  | .between operand lower upper negated => do
    let s ← MonadExcept.ofExcept (requireSubject subject operand)
    let lower ← MonadExcept.ofExcept (operand.comparand lower)
    let upper ← MonadExcept.ofExcept (operand.comparand upper)
    negatedIf negated (site.testRange s lower upper)
  | .among operand values negated => do
    let s ← MonadExcept.ofExcept (requireSubject subject operand)
    let values ← MonadExcept.ofExcept (values.mapM operand.comparand)
    negatedIf negated (site.testAmong s values)
  | .like operand pattern escape negated => do
    let s ← MonadExcept.ofExcept (requireSubject subject operand)
    let pattern ← MonadExcept.ofExcept (operand.comparand pattern)
    negatedIf negated (site.testPattern s pattern escape)
  | .isNull operand negated => do
    let s ← MonadExcept.ofExcept (requireSubject subject operand)
    negatedIf negated (site.testAbsence s)

/-- adds conditions one after the other -/
def conditions (site : Site Q) (subject : SubjectOf) : List (Condition ResolvedOperand) → Building Q Unit
  | [] => pure ()
  | c :: rest => do
    condition site subject c
    conditions site subject rest

end

/-- the query of a condition -/
def query (site : Site Q) (subject : SubjectOf) (c : Option (Condition ResolvedOperand)) : Except QueryError Q :=
  let add : Building Q Unit :=
    match c with
    | some c => condition site subject c
    | none => pure ()
  match add.run.run Draft.initial with
  | (.error e, _) => .error e
  | (.ok (), draft) =>
    match site.build draft with
    | .ok q => .ok q
    | .error e => .error (.structural e)

end Render

end EntitySearch
