/-
The aliases of one query.

An alias stands for a root entity or for a path that a join gave it; the first binding stays. The names of root entities
are kept in a list of their own beside the bindings, and a table comes with the proof that the two agree. `canonical`
replaces the alias at the front of a path by what it stands for, and so on through joins of joins, until names of
properties of the target entity are left.
-/
import EntitySearch.Resolve.Path

namespace EntitySearch

/-- what an alias stands for -/
inductive Binding where
  | root (entity : String)
  | join (path : Path)
  deriving DecidableEq, Repr

/-- the names that are bound to root entities -/
def rootsOf (bindings : List (String × Binding)) : List String :=
  bindings.filterMap fun
    | (name, .root _) => some name
    | (_, .join _) => none

/-- the aliases and what they stand for, in the order in which they were bound, and the list of the root aliases -/
structure AliasTable where
  bindings : List (String × Binding)
  rootAliases : List String
  exact : rootAliases = rootsOf bindings
  deriving DecidableEq, Repr

namespace AliasTable

/-- no alias at all -/
def empty : AliasTable := ⟨[], [], rfl⟩

/-- what a name stands for -/
def get? (t : AliasTable) (name : String) : Option Binding := t.bindings.lookup name

/-- the name is bound -/
def isAlias (t : AliasTable) (name : String) : Bool := (t.get? name).isSome

/-- the number of names bound -/
def size (t : AliasTable) : Nat := t.bindings.length

/-- a binding behind the others; a root alias is listed, too -/
def add (t : AliasTable) (name : String) : Binding → AliasTable
  | .root entity => ⟨t.bindings ++ [(name, .root entity)], t.rootAliases ++ [name], by simp [rootsOf, t.exact]⟩
  | .join path => ⟨t.bindings ++ [(name, .join path)], t.rootAliases, by simp [rootsOf, t.exact]⟩

/-- binds a root alias; again to the same entity changes nothing, to anything else is a conflict. How it ended, and the
table that is left. -/
def registerRoot (t : AliasTable) (name entity : String) : Except AliasError Unit × AliasTable :=
  match t.get? name with
  | none => (.ok (), t.add name (.root entity))
  | some (.root existing) => if existing == entity then (.ok (), t) else (.error (.conflict name existing entity), t)
  | some (.join path) => (.error (.conflict name path.text entity), t)

/-- the table with a root alias in it, if there is no conflict -/
def bindRoot (t : AliasTable) (name entity : String) : Except AliasError AliasTable :=
  match t.registerRoot name entity with
  | (.ok (), t') => .ok t'
  | (.error e, _) => .error e

/-- binds a join alias unless the name is bound already; whether it was bound, and the table -/
def bindJoin (t : AliasTable) (name : String) (path : Path) : Bool × AliasTable :=
  if t.isAlias name then (false, t) else (true, t.add name (.join path))

/-- the names of a path below the target entity, with at most `bound` aliases replaced one after the other -/
def canonicalWithin (t : AliasTable) : (bound : Nat) → Path → Except AliasError (List String)
  | bound, path =>
    match path.start with
    | none => .ok path.properties
    | some name =>
      match bound, t.get? name with
      | 0, _ | _, none => .error (.unknown name)
      | _ + 1, some (.root _) => .ok path.properties
      | bound + 1, some (.join inner) => (t.canonicalWithin bound inner).map (· ++ path.properties)

/-- the names of a path below the target entity. No alias is replaced twice, so the size of the table bounds the steps. -/
def canonical (t : AliasTable) (path : Path) : Except AliasError (List String) := t.canonicalWithin t.size path

end AliasTable

end EntitySearch
