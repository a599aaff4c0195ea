/-
The catalog: sound declarations, and the questions asked of them.

A catalog is built by `Catalog.of`, which refuses unsound declarations, so that names are unique and exactly the
embedded properties have properties of their own. A path of names leads from an entity through embedded objects to a
property.
-/
import EntitySearch.Catalog.Declaration
import EntitySearch.Error

namespace EntitySearch

/-- declarations in which nothing is wrong -/
structure Catalog where
  entities : List Entity
  sound : checkEntities entities = .ok ()

namespace Catalog

/-- the catalog of some declarations, or the first fault in them -/
def of (entities : List Entity) : Except CatalogError Catalog :=
  match h : checkEntities entities with
  | .ok () => .ok ⟨entities, h⟩
  | .error e => .error e

/-- the property at the end of a path through nested properties -/
def walk (properties : List (String × Property)) : List String → Option Property
  | [] => none
  | [name] => properties.lookup name
  | name :: rest => (properties.lookup name).bind fun p => walk p.properties rest

/-- the declaration of an entity, by its simple name -/
def entity? (c : Catalog) (name : String) : Option Entity := c.entities.find? fun e => e.name == name

/-- the simple name of the entity that is known under a name, simple or qualified -/
def resolve (c : Catalog) (name : String) : Option String :=
  (c.entities.find? fun e => e.names.contains name).map (·.name)

/-- the property of an entity at a path -/
def property (c : Catalog) (entity : String) (path : List String) : Option Property :=
  (c.entity? entity).bind fun e => walk e.properties path

/-- there is a property at the path -/
def hasProperty (c : Catalog) (entity : String) (path : List String) : Bool := (c.property entity path).isSome

/-- there is an embedded object at the path -/
def isEmbedded (c : Catalog) (entity : String) (path : List String) : Bool :=
  (c.property entity path).any fun p => p.kind == .embedded

/-- the property at the path is split into words for text search -/
def isAnalyzed (c : Catalog) (entity : String) (path : List String) : Bool :=
  (c.property entity path).any fun p => p.analyzed

/-- the value of a literal in the property at the path -/
def convert (c : Catalog) (entity : String) (path : List String) (literal : String) : Except SchemaError Value :=
  match c.property entity path with
  | none => .error (.unknownProperty (Text.dotted path) entity)
  | some p =>
    match p.kind.convert literal with
    | .ok v => .ok v
    | .error _ => .error (.invalidValue (Text.dotted path) literal p.kind.name)

/-- the simple names of the entities, in the order of their characters -/
def entityNames (c : Catalog) : List String := (c.entities.map (·.name)).mergeSort (fun a b => decide (a ≤ b))

end Catalog

/-- what a property path can start from: an entity, or an object embedded in it -/
structure ObjectType where
  entity : String
  path : List String
  deriving DecidableEq, Repr

namespace ObjectType

/-- the type of an entity -/
def ofEntity (entity : String) : ObjectType := ⟨entity, []⟩

/-- the object is embedded -/
def isInner (t : ObjectType) : Bool := !t.path.isEmpty

/-- the path of a property below the entity -/
def pathTo (t : ObjectType) (name : String) : List String := t.path ++ [name]

/-- the type of the object embedded under a name -/
def embedded (t : ObjectType) (name : String) : ObjectType := ⟨t.entity, t.pathTo name⟩

/-- the entity's name and the path joined by full stops -/
def name (t : ObjectType) : String := if t.path.isEmpty then t.entity else t.entity ++ "." ++ Text.dotted t.path

def hasProperty (c : Catalog) (t : ObjectType) (name : String) : Bool := c.hasProperty t.entity (t.pathTo name)

def isEmbedded (c : Catalog) (t : ObjectType) (name : String) : Bool := c.isEmbedded t.entity (t.pathTo name)

def isAnalyzed (c : Catalog) (t : ObjectType) (name : String) : Bool := c.isAnalyzed t.entity (t.pathTo name)

end ObjectType

end EntitySearch
