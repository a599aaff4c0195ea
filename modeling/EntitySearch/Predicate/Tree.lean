/-
Predicate trees and the factory that turns them into queries of a search store.

A leaf tests one property, or one aggregate of a property, and holds the query that the factory made for it. Root and
Not have at most one child. Rendering folds a tree with the factory; a Not directly under an And goes into the list of
what must not hold instead of becoming a negation of its own.
-/
import EntitySearch.Predicate.Aggregation
import EntitySearch.Catalog.Value
import EntitySearch.Error

namespace EntitySearch

/-- what a leaf tests; the property is a dotted path below the target entity -/
inductive Test where
  | compare (property : String) (relation : Relation) (value : Value)
  | range (property : String) (lower upper : Value)
  | among (property : String) (values : List Value)
  | like (property pattern : String) (escape : Option Char)
  | isNull (property : String)
  deriving DecidableEq

/-- the property that is tested -/
def Test.property : Test → String
  | .compare p _ _ => p
  | .range p _ _ => p
  | .among p _ => p
  | .like p _ _ => p
  | .isNull p => p

/-- how the parts of a query are made; a leaf with an aggregation tests the aggregate instead of the property -/
structure Factory (Q : Type) where
  matchAll : (entity : String) → Q
  leaf : (entity : String) → Option Aggregation → Test → Q
  and : (must mustNot : List Q) → Q
  or : List Q → Q
  not : Q → Q

/-- a tree of tests -/
inductive Predicate (Q : Type) where
  | root (child : Option (Predicate Q))
  | and (children : List (Predicate Q))
  | or (children : List (Predicate Q))
  | not (child : Option (Predicate Q))
  | leaf (test : Test) (aggregation : Option Aggregation) (query : Q)

namespace Predicate

variable {Q : Type}

/-- what a node is called in errors -/
def label : Predicate Q → String
  | .root _ => "Root"
  | .and _ => "And"
  | .or _ => "Or"
  | .not _ => "Not"
  | .leaf .. => "Leaf"

/-- a node that can have children at all -/
def canHold : Predicate Q → Bool
  | .leaf .. => false
  | _ => true

/-- a node that can take one more child -/
def hasRoom : Predicate Q → Bool
  | .root child | .not child => child.isNone
  | .and _ | .or _ => true
  | .leaf .. => false

/-- the node with a child behind the others -/
def adopt (parent child : Predicate Q) : Except StructureError (Predicate Q) :=
  match parent with
  | .root none => .ok (.root (some child))
  | .not none => .ok (.not (some child))
  | .and children => .ok (.and (children ++ [child]))
  | .or children => .ok (.or (children ++ [child]))
  | full => .error (.tooManyChildren full.label)

mutual

/-- the query of a tree -/
def render (f : Factory Q) (entity : String) : Predicate Q → Except StructureError Q
  | .root none => .ok (f.matchAll entity)
  | .root (some p) => render f entity p
  | .and children => (renderParts f entity children).map fun (must, mustNot) => f.and must mustNot
  | .or children => (renderAll f entity children).map f.or
  | .not none => .error .emptyNegation
  | .not (some p) => (render f entity p).map f.not
  | .leaf _ _ query => .ok query

/-- the queries of the children of an And: those that must hold, and those that must not -/
def renderParts (f : Factory Q) (entity : String) : List (Predicate Q) → Except StructureError (List Q × List Q)
  | [] => .ok ([], [])
  | .not none :: _ => .error .emptyNegation
  | .not (some p) :: rest => do
    let q ← render f entity p
    let (must, mustNot) ← renderParts f entity rest
    .ok (must, q :: mustNot)
  | p :: rest => do
    let q ← render f entity p
    let (must, mustNot) ← renderParts f entity rest
    .ok (q :: must, mustNot)

/-- the queries of several trees -/
def renderAll (f : Factory Q) (entity : String) : List (Predicate Q) → Except StructureError (List Q)
  | [] => .ok []
  | p :: rest => do .ok ((← render f entity p) :: (← renderAll f entity rest))

end

end Predicate

end EntitySearch
