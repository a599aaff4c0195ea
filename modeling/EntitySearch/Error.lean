/-
Why a query is rejected.

Every failure is a `QueryError` of one of six groups. `message` is its text, `code` a stable name of the condition by
which callers can tell failures apart without reading the text.
-/
import EntitySearch.Catalog.Value
import EntitySearch.Text.Basic

namespace EntitySearch

/-- the text is no query; `offset` counts bytes from its start -/
structure SyntaxError where
  message : String
  offset : Nat
  deriving DecidableEq, Repr

inductive AliasError where
  | conflict (name existing requested : String)
  | unknown (name : String)
  deriving DecidableEq, Repr

inductive SchemaError where
  | unknownEntity (name : String)
  | unknownProperty (property type : String)
  | analyzedProperty (property type : String)
  | wholeEmbedded (property type : String)
  | notEmbedded (property type : String)
  | entityOperand (name denotes : String)
  | invalidValue (property value expected : String)
  deriving DecidableEq, Repr

inductive StructureError where
  | tooManyChildren (parent : String)
  | noOpenScope
  | unclosedScopes (count : Nat)
  | emptyNegation
  deriving DecidableEq, Repr

inductive FeatureError where
  | severalRoots
  | severalTargets (existing requested : String)
  | collectionIndex (path : String)
  | positionalParameter
  | propertyComparison (left right : String)
  | aggregateOutsideHaving (expression : String)
  | plainPropertyInHaving (property : String)
  | constantPredicate
  deriving DecidableEq, Repr

inductive QueryError where
  | malformed (error : SyntaxError)
  | aliasing (error : AliasError)
  | schema (error : SchemaError)
  | structural (error : StructureError)
  | unsupported (error : FeatureError)
  | unbound (parameter : String)
  deriving DecidableEq, Repr

def SyntaxError.text (e : SyntaxError) : String := s!"{e.message} (at offset {e.offset})"

def AliasError.text : AliasError → String
  | .conflict name existing requested =>
    s!"alias '{name}' is already bound to type '{existing}', cannot rebind it to '{requested}'"
  | .unknown name => s!"unknown alias '{name}'"

def SchemaError.text : SchemaError → String
  | .unknownEntity name => s!"unknown entity '{name}'"
  | .unknownProperty property type => s!"no property '{property}' on type '{type}'"
  | .analyzedProperty property type =>
    s!"property '{property}' of type '{type}' is analyzed and cannot be used in predicates, sorting or grouping"
  | .wholeEmbedded property type =>
    s!"embedded property '{property}' of type '{type}' cannot be projected as a whole, " ++
      "select its properties instead"
  | .notEmbedded property type => s!"property '{property}' of type '{type}' is not an embedded entity"
  | .entityOperand name denotes => s!"alias '{name}' denotes {denotes} and cannot be used as a predicate operand"
  | .invalidValue property value expected => s!"value '{value}' is not a valid {expected} for property '{property}'"

def StructureError.text : StructureError → String
  | .tooManyChildren parent => s!"{parent} predicate already has a child, cannot add another one"
  | .noOpenScope => "no open predicate scope to close"
  | .unclosedScopes count => s!"{count} predicate scope(s) still open"
  | .emptyNegation => "negation predicate has no child"

def FeatureError.text : FeatureError → String
  | .severalRoots => "queries over more than one root entity alias are not supported"
  | .severalTargets existing requested =>
    s!"only one target entity can be queried, '{existing}' is already selected but '{requested}' was given"
  | .collectionIndex path => s!"collection index operations are not supported: '{path}'"
  | .positionalParameter => "positional parameters are not supported, use named parameters"
  | .propertyComparison left right => s!"comparing property '{left}' with property '{right}' is not supported"
  | .aggregateOutsideHaving expression => s!"aggregate '{expression}' can only be used in SELECT or HAVING"
  | .plainPropertyInHaving property => s!"HAVING conditions must compare aggregates, found property '{property}'"
  | .constantPredicate => "predicate does not reference any property"

namespace QueryError

/-- the text shown to the user -/
def message : QueryError → String
  | .malformed e => "Syntax error: " ++ e.text
  | .aliasing e => "Alias error: " ++ e.text
  | .schema e => "Schema error: " ++ e.text
  | .structural e => "Predicate structure error: " ++ e.text
  | .unsupported e => "Unsupported feature: " ++ e.text
  | .unbound parameter => s!"named parameter ':{parameter}' has no value"

/-- the number of the condition: a group of hundred for each group of errors -/
def number : QueryError → Nat
  | .malformed _ => 100
  | .aliasing (.conflict ..) => 201
  | .aliasing (.unknown _) => 202
  | .schema (.unknownEntity _) => 301
  | .schema (.unknownProperty ..) => 302
  | .schema (.analyzedProperty ..) => 303
  | .schema (.wholeEmbedded ..) => 304
  | .schema (.notEmbedded ..) => 305
  | .schema (.entityOperand ..) => 306
  | .schema (.invalidValue ..) => 307
  | .structural (.tooManyChildren _) => 401
  | .structural .noOpenScope => 402
  | .structural (.unclosedScopes _) => 403
  | .structural .emptyNegation => 404
  | .unsupported .severalRoots => 501
  | .unsupported (.severalTargets ..) => 502
  | .unsupported (.collectionIndex _) => 503
  | .unsupported .positionalParameter => 504
  | .unsupported (.propertyComparison ..) => 505
  | .unsupported (.aggregateOutsideHaving _) => 506
  | .unsupported (.plainPropertyInHaving _) => 507
  | .unsupported .constantPredicate => 508
  | .unbound _ => 601

/-- the stable name of the condition -/
def code (e : QueryError) : String := "ENTITYQL-" ++ Number.padded 4 e.number

end QueryError

end EntitySearch
