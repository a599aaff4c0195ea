/-
What a catalog declares: entities with their properties, and when a list of declarations is sound.

A property is embedded, with properties of its own, or a scalar, without. The properties of an object are kept in the
order of their names. `checkEntities` goes through the entities in order and names the first fault.
-/
import EntitySearch.Catalog.Value
import EntitySearch.Text.Basic

namespace EntitySearch

/-- a declared property; the properties of an embedded object are inside it -/
structure Property where
  kind : Kind
  analyzed : Bool
  properties : List (String × Property)

/-- a declared entity -/
structure Entity where
  name : String
  qualifiedName : Option String
  properties : List (String × Property)

/-- why declarations make no catalog -/
inductive CatalogError where
  | unreadable (cause : String)
  | malformed
  | duplicateEntity (name : String)
  | emptyEmbedded (entity property : String)
  | nestedOnScalar (entity property : String) (kind : Kind)
  | noEntities
  | namelessEntity
  deriving DecidableEq, Repr

def CatalogError.message : CatalogError → String
  | .unreadable cause => s!"Failed to read catalog file: {cause}"
  | .malformed => "Failed to parse catalog"
  | .duplicateEntity name => s!"Duplicate entity name: {name}"
  | .emptyEmbedded entity property => s!"Embedded property '{property}' of entity '{entity}' declares no properties"
  | .nestedOnScalar entity property kind =>
    s!"Property '{property}' of entity '{entity}' is {kind.name} and cannot declare nested properties"
  | .noEntities => "Invalid catalog: Catalog must contain at least one entity definition"
  | .namelessEntity => "Invalid catalog: Entity name cannot be empty"

namespace Entity

/-- the names under which an entity is known -/
def names (e : Entity) : List String := e.name :: e.qualifiedName.toList

end Entity

/-- a property's name behind the names of the objects around it -/
def nestedName (outer name : String) : String := if outer.isEmpty then name else outer ++ "." ++ name

mutual

/-- embedded properties have properties, scalars have none, at every depth -/
def checkProperty (entity name : String) : Property → Except CatalogError Unit
  | ⟨.embedded, _, []⟩ => .error (.emptyEmbedded entity name)
  | ⟨.embedded, _, inner⟩ => checkProperties entity name inner
  | ⟨_, _, []⟩ => .ok ()
  | ⟨kind, _, _⟩ => .error (.nestedOnScalar entity name kind)

def checkProperties (entity outer : String) : List (String × Property) → Except CatalogError Unit
  | [] => .ok ()
  | (name, p) :: rest =>
    match checkProperty entity (nestedName outer name) p with
    | .error e => .error e
    | .ok _ => checkProperties entity outer rest

end

/-- the names seen so far with more names behind them, none of which was seen -/
def addNames (seen : List String) : List String → Except CatalogError (List String)
  | [] => .ok seen
  | name :: rest => if seen.contains name then .error (.duplicateEntity name) else addNames (name :: seen) rest

/-- the entities have names, all of them different, and sound properties -/
def checkFrom (seen : List String) : List Entity → Except CatalogError Unit
  | [] => .ok ()
  | e :: rest =>
    if (Text.trim e.name).isEmpty then .error .namelessEntity
    else do
      let seen ← addNames seen e.names
      checkProperties e.name "" e.properties
      checkFrom seen rest

/-- at least one entity, and nothing wrong with any -/
def checkEntities (entities : List Entity) : Except CatalogError Unit :=
  if entities.isEmpty then .error .noEntities else checkFrom [] entities

end EntitySearch
