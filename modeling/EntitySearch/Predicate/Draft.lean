/-
Building a predicate tree scope by scope.

Scopes are opened, filled and closed. Whether the scope below can take one more child is checked when a scope is
opened; it is put under the scope below when it is closed. An operation may fail, and the draft is used on.
-/
import EntitySearch.Predicate.Tree

namespace EntitySearch

/-- a tree being built: the scopes opened and not yet closed, the innermost first, above the root -/
structure Draft (Q : Type) where
  scopes : List (Predicate Q)
  base : Predicate Q

/-- an operation on a draft: how it ends, and the draft behind it -/
abbrev Building (Q α : Type) := ExceptT QueryError (StateM (Draft Q)) α

namespace Draft

variable {Q : Type}

/-- the root alone -/
def initial : Draft Q := ⟨[], .root none⟩

/-- the innermost scope -/
def top (s : Draft Q) : Predicate Q := s.scopes.headD s.base

/-- the draft with the innermost scope replaced -/
def withTop (s : Draft Q) (p : Predicate Q) : Draft Q :=
  match s.scopes with
  | [] => { s with base := p }
  | _ :: rest => { s with scopes := p :: rest }

/-- the number of scopes to close -/
def depth (s : Draft Q) : Nat := s.scopes.length

/-- opens a scope -/
def push (scope : Predicate Q) : Building Q Unit := do
  let s ← get
  if s.top.hasRoom then set { s with scopes := scope :: s.scopes }
  else throw (.structural (.tooManyChildren s.top.label))

/-- puts a node under the innermost scope -/
def place (node : Predicate Q) : Building Q Unit := do
  let s ← get
  match s.top.adopt node with
  | .ok p => set (s.withTop p)
  | .error e => throw (.structural e)

/-- closes the innermost scope and puts it under the one below -/
def pop : Building Q Unit := do
  let s ← get
  match s.scopes with
  | [] => throw (.structural .noOpenScope)
  | closed :: rest =>
    set { s with scopes := rest }
    place closed

/-- the tree, if every scope is closed -/
def finish (s : Draft Q) : Except StructureError (Predicate Q) :=
  if s.scopes.isEmpty then .ok s.base else .error (.unclosedScopes s.depth)

end Draft

end EntitySearch
