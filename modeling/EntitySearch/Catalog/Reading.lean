/-
Declarations read from a tree of markup.

Fields of other names are passed over; a missing field, a field of the wrong shape, a repeated field or an unknown
kind makes the whole malformed. Of two properties of one name the later one counts.
-/
import EntitySearch.Catalog.Basic
import EntitySearch.Markup.Tree

namespace EntitySearch

/-- the entries with `value` put under `key`, in the order of the keys -/
def insertSorted {α : Type} (key : String) (value : α) : List (String × α) → List (String × α)
  | [] => [(key, value)]
  | (k, v) :: rest =>
    if key < k then (key, value) :: (k, v) :: rest
    else if k == key then (key, value) :: rest
    else (k, v) :: insertSorted key value rest

/-- a bare word without any character, or one for the absence of a value -/
def Node.isAbsent : Node → Bool
  | .scalar .bare _ text => text.isEmpty || isNull text
  | _ => false

/-- the kind named by a scalar; the strict reading also takes the name as a key with nothing under it, and the loose
reading as a tag with nothing behind it -/
def Kind.ofNode (how : Reading) (n : Node) : Option Kind :=
  match how, n.shown how with
  | .strict, .table [(key, inner)] => if inner.isAbsent then (key.asText how).bind Kind.ofName? else none
  | _, .scalar style (.named name) text =>
    if (Node.scalar style .missing text).isAbsent then Kind.ofName? name else none
  | _, _ => (n.asText how).bind Kind.ofName?

mutual

/-- a property: its kind, whether it is analyzed, and its own properties; `depth` bounds the nesting -/
def Property.ofNode (how : Reading) : (depth : Nat) → Node → Option Property
  | 0, _ => none
  | depth + 1, n =>
    (n.asRecord how ["type", "analyzed", "properties"]).bind fun fields =>
      match fields with
      | [some kind, analyzed, inner] =>
        (Kind.ofNode how kind).bind fun kind =>
          (match analyzed with | none => some false | some b => b.asBool how).bind fun analyzed =>
            (match inner with | none => some [] | some t => propertiesOfNode how depth t).map fun inner =>
              ⟨kind, analyzed, inner⟩
      | _ => none

/-- properties by name; what was left out has no depth -/
def propertiesOfNode (how : Reading) : (depth : Nat) → Node → Option (List (String × Property))
  | 0, n => if n.isVoid how then some [] else none
  | depth + 1, n =>
    (n.asEntries how).bind fun entries =>
      entries.foldlM (fun found (name, n) => (Property.ofNode how depth n).map fun p => insertSorted name p found) []

end

/-- the number of levels of a tree -/
def Node.levels : Node → Nat
  | .scalar _ _ _ => 1
  | .reference _ => 1
  | .list items => 1 + go items
  | .table entries => 1 + goEntries entries
where
  go : List Node → Nat
    | [] => 0
    | n :: rest => max n.levels (go rest)
  goEntries : List (Node × Node) → Nat
    | [] => 0
    | (_, n) :: rest => max n.levels (goEntries rest)

/-- how deep the properties of an entity may be nested: the loose reading has room for 128 lists and tables inside one
another, three of them around the properties -/
def propertyDepth (how : Reading) (properties : Node) : Nat :=
  match how with
  | .strict => properties.levels + 1
  | .loose _ => 125

/-- an entity: its name, perhaps a qualified name, and its properties -/
def Entity.ofNode (how : Reading) (n : Node) : Option Entity :=
  (n.asRecord how ["name", "qualified_name", "properties"]).bind fun fields =>
    match fields with
    | [some name, qualified, some properties] =>
      (name.asText how).bind fun name =>
        (match qualified with | none => some none | some q => q.asOptionalText how).bind fun qualified =>
          (propertiesOfNode how (propertyDepth how properties) properties).map fun ps => ⟨name, qualified, ps⟩
    | _ => none

/-- the entities of a catalog -/
def entitiesOfNode (how : Reading) (n : Node) : Option (List Entity) :=
  (n.asRecord how ["entities"]).bind fun fields =>
    match fields with
    | [some entities] => (entities.asList how).bind fun ns => ns.mapM (Entity.ofNode how)
    | _ => none

/-- the catalog in a tree -/
def Catalog.ofNode (how : Reading) (n : Node) : Except CatalogError Catalog :=
  match entitiesOfNode how n with
  | some entities => Catalog.of entities
  | none => .error .malformed

/-- the catalog in a text of indented markup -/
def Catalog.ofText (text : String) : Except CatalogError Catalog :=
  match Markup.parse text with
  | some d => Catalog.ofNode d.reading d.root
  | none => .error .malformed

end EntitySearch
