/-
Adding tests to a predicate tree.

A test is about a property, or about an aggregate of one. A literal is converted to the type of what is tested: a
whole number for a count, a double for an average, the property's own kind otherwise. A parameter's value is used as
it is, and the pattern of a LIKE is always a text.
-/
import EntitySearch.Catalog.Basic
import EntitySearch.Predicate.Draft

namespace EntitySearch

/-- what a test is about: a property, under an aggregation or not -/
structure Subject where
  aggregation : Option Aggregation
  path : List String
  deriving DecidableEq, Repr

/-- the property's dotted name -/
def Subject.property (s : Subject) : String := Text.dotted s.path

/-- what a subject is compared with -/
inductive Comparand where
  | literal (text : String)
  | parameter (value : Value)
  deriving DecidableEq

/-- the text of a pattern, which is never converted -/
def Comparand.pattern : Comparand → String
  | .literal text => text
  | .parameter value => value.text

/-- where predicates are built: the catalog, the target entity and the factory of queries -/
structure Site (Q : Type) where
  catalog : Catalog
  entity : String
  factory : Factory Q

namespace Site

variable {Q : Type}

/-- a literal as a value of a fixed kind, for an aggregate -/
def convertAs (kind : Kind) (f : Aggregation) (path : List String) (literal : String) : Except SchemaError Value :=
  match kind.convert literal with
  | .ok v => .ok v
  | .error _ => .error (.invalidValue (f.applied (Text.dotted path)) literal kind.name)

/-- a literal as a value that the subject can be compared with -/
def convertLiteral (site : Site Q) (s : Subject) (literal : String) : Except SchemaError Value :=
  match s.aggregation with
  | some .count => convertAs .long .count s.path literal
  | some .countDistinct => convertAs .long .countDistinct s.path literal
  | some .avg => convertAs .double .avg s.path literal
  | _ => site.catalog.convert site.entity s.path literal

/-- the value that the subject is compared with -/
def convert (site : Site Q) (s : Subject) : Comparand → Except QueryError Value
  | .parameter value => .ok value
  | .literal text =>
    match site.convertLiteral s text with
    | .ok v => .ok v
    | .error e => .error (.schema e)

/-- puts a leaf for a test under the innermost scope -/
def addTest (site : Site Q) (s : Subject) (test : Test) : Building Q Unit :=
  Draft.place (.leaf test s.aggregation (site.factory.leaf site.entity s.aggregation test))

def testRelation (site : Site Q) (s : Subject) (r : Relation) (value : Comparand) : Building Q Unit := do
  let value ← MonadExcept.ofExcept (site.convert s value)
  site.addTest s (.compare s.property r value)

def testRange (site : Site Q) (s : Subject) (lower upper : Comparand) : Building Q Unit := do
  let lower ← MonadExcept.ofExcept (site.convert s lower)
  let upper ← MonadExcept.ofExcept (site.convert s upper)
  site.addTest s (.range s.property lower upper)

def testAmong (site : Site Q) (s : Subject) (values : List Comparand) : Building Q Unit := do
  let values ← MonadExcept.ofExcept (values.mapM (site.convert s))
  site.addTest s (.among s.property values)

def testPattern (site : Site Q) (s : Subject) (pattern : Comparand) (escape : Option Char) : Building Q Unit :=
  site.addTest s (.like s.property pattern.pattern escape)

def testAbsence (site : Site Q) (s : Subject) : Building Q Unit := site.addTest s (.isNull s.property)

/-- the query of a finished draft -/
def build (site : Site Q) (s : Draft Q) : Except StructureError Q := do
  (← s.finish).render site.factory site.entity

end Site

end EntitySearch
