/-
What names mean while a query is walked.

A scope holds the aliases bound so far, the target entity, and the clauses being walked, the innermost first. Which
properties a path may end in depends on the clause: SELECT takes analyzed scalars but no embedded objects, all other
clauses take embedded objects but no analyzed scalars.
-/
import EntitySearch.Predicate.Aggregation
import EntitySearch.Resolve.Alias

namespace EntitySearch

/-- a clause that changes what paths may end in, or that merely is marked -/
inductive Walk where
  | select
  | sources
  | order
  deriving DecidableEq, Repr

/-- the target entity and the name by which the query calls it -/
structure Target where
  entity : String
  calledBy : String
  deriving DecidableEq, Repr

/-- the meaning of names at a point of the walk -/
structure Scope where
  aliases : AliasTable
  target : Option Target
  walks : List Walk
  deriving DecidableEq, Repr

namespace Scope

/-- before anything is walked -/
def initial : Scope := ⟨.empty, none, []⟩

/-- the clause being walked -/
def walk (s : Scope) : Option Walk := s.walks.head?

/-- a clause begins -/
def enter (s : Scope) (w : Walk) : Scope := { s with walks := w :: s.walks }

/-- the innermost clause ends -/
def leave (s : Scope) : Scope := { s with walks := s.walks.tail }

/-- the SELECT clause is being walked -/
def inSelect (s : Scope) : Bool := s.walk == some .select

/-- exactly one root alias is bound -/
def hasSingleRoot (s : Scope) : Bool := s.aliases.rootAliases.length == 1

/-- with several root aliases no property can be referred to -/
def checkRoots (s : Scope) : Except QueryError Unit :=
  if 1 < s.aliases.rootAliases.length then .error (.unsupported .severalRoots) else .ok ()

/-- the error of a query that names no entity -/
def noTarget : QueryError := .malformed ⟨"query has no FROM clause", 0⟩

/-- the type of the target entity -/
def targetType (s : Scope) : Except QueryError ObjectType :=
  match s.target with
  | some t => .ok (.ofEntity t.entity)
  | none => .error noTarget

/-! ## Binding names -/

/-- takes an entity of the FROM clause; the alias is bound before the target is compared, and stays bound if they differ -/
def addSource (c : Catalog) (s : Scope) (calledBy : String) (name : Option String) : Except QueryError Unit × Scope :=
  match c.resolve calledBy with
  | none => (.error (.schema (.unknownEntity calledBy)), s)
  | some entity =>
    let (outcome, aliases) := s.aliases.registerRoot (name.getD calledBy) entity
    let s := { s with aliases }
    match outcome, s.target with
    | .error e, _ => (.error (.aliasing e), s)
    | .ok (), none => (.ok (), { s with target := some ⟨entity, calledBy⟩ })
    | .ok (), some t =>
      if t.entity == entity then (.ok (), s) else (.error (.unsupported (.severalTargets t.entity entity)), s)

/-- the error of a step behind a path that leads nowhere further -/
def leadsNowhere (p : Path) : QueryError := .schema (.notEmbedded p.text p.root.name)

/-- takes a join alias for a path into an embedded object; a name bound already keeps its meaning -/
def addJoin (s : Scope) (name : String) (path : Path) : Except QueryError Unit × Scope :=
  if path.endsInObject then (.ok (), { s with aliases := (s.aliases.bindJoin name path).2 })
  else (.error (leadsNowhere path), s)

/-! ## Resolving paths -/

/-- an alias as the start of a path -/
def aliasPath (s : Scope) (name : String) : Except QueryError Path := do
  s.checkRoots
  match s.aliases.get? name with
  | some (.root entity) => .ok (.ofAlias name (.ofEntity entity))
  | some (.join path) =>
    match path.terminal with
    | some type => .ok (.ofAlias name type)
    | none => .error (leadsNowhere path)
  | none => .error (.aliasing (.unknown name))

/-- a step into an embedded object -/
def stepInto (c : Catalog) (path : Path) (name : String) : Except QueryError Path :=
  match path.terminal with
  | none => .error (leadsNowhere path)
  | some type =>
    if !type.hasProperty c name then .error (.schema (.unknownProperty name type.name))
    else if !type.isEmbedded c name then .error (.schema (.notEmbedded name type.name))
    else .ok (path.push ⟨name, some (type.embedded name)⟩)

/-- the last step of a path -/
def lastStep (c : Catalog) (s : Scope) (path : Path) (name : String) : Except QueryError Path :=
  match path.terminal with
  | none => .error (leadsNowhere path)
  | some type =>
    if !type.hasProperty c name then .error (.schema (.unknownProperty name type.name))
    else if type.isEmbedded c name then .ok (path.push ⟨name, some (type.embedded name)⟩)
    else if !s.inSelect && type.isAnalyzed c name then
      .error (.schema (.analyzedProperty (Text.dotted (type.pathTo name)) type.entity))
    else .ok (path.push ⟨name, none⟩)

/-- a single name: an alias, or else a property of the target entity -/
def singleName (c : Catalog) (s : Scope) (name : String) : Except QueryError Path :=
  if s.aliases.isAlias name then s.aliasPath name
  else do
    s.checkRoots
    s.lastStep c (.bare (← s.targetType)) name

/-- the path behind a join alias that stands alone -/
def joinBehind (s : Scope) (path : Path) : Option Path :=
  match path.start, path.steps with
  | some name, [] =>
    match s.aliases.get? name with
    | some (.join inner) => some inner
    | _ => none
  | _, _ => none

/-- the canonical names of a path, joined by full stops -/
def canonicalText (s : Scope) (path : Path) : Except QueryError String :=
  match s.aliases.canonical path with
  | .ok names => .ok (Text.dotted names)
  | .error e => .error (.aliasing e)

/-- in SELECT a path may not end in an embedded object, be it by its last step or as a join alias -/
def checkEnd (s : Scope) (path : Path) : Except QueryError Path :=
  if !s.inSelect then .ok path
  else if path.endsInObject then .error (.schema (.wholeEmbedded path.text path.root.entity))
  else
    match s.joinBehind path with
    | some _ => do .error (.schema (.wholeEmbedded (← s.canonicalText path) path.root.entity))
    | none => .ok path

/-- the start of a path of several names: an alias, or else an embedded property of the target entity -/
def start (c : Catalog) (s : Scope) (first : String) : Except QueryError Path :=
  if s.aliases.isAlias first then s.aliasPath first
  else do
    s.checkRoots
    let type ← s.targetType
    if !type.hasProperty c first then .error (.aliasing (.unknown first))
    else stepInto c (.bare type) first

/-- steps into embedded objects, one after the other -/
def descend (c : Catalog) (path : Path) : List String → Except QueryError Path
  | [] => .ok path
  | name :: rest => do descend c (← stepInto c path name) rest

/-- the path that a dotted reference means -/
def resolvePath (c : Catalog) (s : Scope) (p : PathExpr) : Except QueryError Path :=
  if p.index.isSome then .error (.unsupported (.collectionIndex p.text))
  else
    match p.segments with
    | [] => .error (.malformed ⟨"empty property path", 0⟩)
    | [name] => do s.checkEnd (← s.singleName c name)
    | first :: second :: rest => do
      let path ← s.start c first
      let path ← descend c path (second :: rest).dropLast
      let path ← s.lastStep c path ((second :: rest).getLast (by simp))
      s.checkEnd path

/-- the path of a reference that must mean a property and not a whole object -/
def resolveProperty (c : Catalog) (s : Scope) (p : PathExpr) : Except QueryError Path := do
  let path ← s.resolvePath c p
  match path.start, path.steps with
  | some name, [] =>
    let denotes ←
      match s.joinBehind path with
      | some _ => (s.canonicalText path).map fun names => s!"the embedded object '{names}'"
      | none => .ok s!"an entity of type '{path.root.entity}'"
    .error (.schema (.entityOperand name denotes))
  | _, _ => .ok path

end Scope

end EntitySearch
