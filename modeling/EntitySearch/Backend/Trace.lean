/-
A record of what a factory was asked to make.

The recording factory keeps every call as a node, so that a rendered query can be looked at part by part.
`Trace.replay` turns the record into what any other factory would have made.
-/
import EntitySearch.Predicate.Tree

namespace EntitySearch

/-- a call of a factory, with the records of the parts it was given -/
inductive Trace where
  | matchAll (entity : String)
  | leaf (entity : String) (aggregation : Option Aggregation) (test : Test)
  | and (must mustNot : List Trace)
  | or (parts : List Trace)
  | not (part : Trace)

namespace Trace

/-- the factory that records its calls -/
def factory : Factory Trace where
  matchAll := .matchAll
  leaf := .leaf
  and := .and
  or := .or
  not := .not

mutual

/-- what another factory makes of the same calls -/
def replay {Q : Type} (f : Factory Q) : Trace → Q
  | .matchAll entity => f.matchAll entity
  | .leaf entity aggregation test => f.leaf entity aggregation test
  | .and must mustNot => f.and (replayAll f must) (replayAll f mustNot)
  | .or parts => f.or (replayAll f parts)
  | .not part => f.not (replay f part)

def replayAll {Q : Type} (f : Factory Q) : List Trace → List Q
  | [] => []
  | t :: rest => replay f t :: replayAll f rest

end

end Trace

end EntitySearch
