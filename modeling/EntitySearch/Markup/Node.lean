/-
The tree that a catalog or a configuration is read from, however it was written down.

A scalar is a bare word or a text. In the strict reading, which JSON has, only a quoted text is a text, and a record
may also be given as the list of its fields in order. In the loose reading of indented markup any scalar may stand for
a text, an empty bare word for an empty list or record, and a reference for the node that it refers to.
-/
import EntitySearch.Json.Reader
import EntitySearch.Json.Writer
import EntitySearch.Markup.Tag

namespace EntitySearch

open Markup (Tag)

/-- how a scalar is written -/
inductive Style where
  | bare
  /-- in quotes, or as a block whose lines are joined -/
  | quoted
  /-- as a block whose lines stay as they are -/
  | literal
  deriving DecidableEq, Repr

/-- a tree of markup -/
inductive Node where
  | scalar (style : Style) (tag : Tag) (text : String)
  | list (items : List Node)
  | table (entries : List (Node × Node))
  | reference (anchor : Nat)

/-- how scalars are taken -/
inductive Reading where
  | strict
  /-- with the nodes that references refer to -/
  | loose (anchored : List (Nat × Node))

namespace Node

/-- a word without quotes or tag -/
def word (text : String) : Node := .scalar .bare .missing text

/-- a text in quotes -/
def text (text : String) : Node := .scalar .quoted .missing text

/-- the value that was left out -/
def empty : Node := word ""

mutual

/-- the tree of a JSON value: numbers and the words true, false and null are bare words -/
def ofJson : Json → Node
  | .null => word "null"
  | .bool b => word (if b then "true" else "false")
  | .int n => word (toString n)
  | .double x => word (Json.scalarText (.double x))
  | .text s => text s
  | .list items => .list (ofItems items)
  | .object members => .table (ofMembers members)

def ofItems : List Json → List Node
  | [] => []
  | v :: rest => ofJson v :: ofItems rest

def ofMembers : List (String × Json) → List (Node × Node)
  | [] => []
  | (k, v) :: rest => (text k, ofJson v) :: ofMembers rest

end

/-- the node that a reference refers to, and any other node itself -/
def shown : Reading → Node → Node
  | .loose anchored, .reference a => (anchored.lookup a).getD (.reference a)
  | _, n => n

/-- the loose reading, and a bare word without any character -/
def isVoid (how : Reading) (n : Node) : Bool :=
  match how, n.shown how with
  | .loose _, .scalar .bare _ text => text.isEmpty
  | _, _ => false

/-- a text -/
def asText (how : Reading) (n : Node) : Option String :=
  match how, n.shown how with
  | .strict, .scalar .bare _ _ => none
  | _, .scalar _ _ text => some text
  | _, _ => none

/-- a word for the absence of a value -/
def isNull (text : String) : Bool := text == "~" || text == "null" || text == "Null" || text == "NULL"

/-- a text or nothing; what is tagged as absent has to be so -/
def asOptionalText (how : Reading) (n : Node) : Option (Option String) :=
  match n.shown how with
  | .scalar .bare .null text => if isNull text then some none else none
  | .scalar .bare .missing text => if text.isEmpty || isNull text then some none else (n.asText how).map some
  | _ => (n.asText how).map some

/-- the word of a scalar that is no text: a bare one, or a literal block with a tag that says so -/
def bareWord? (how : Reading) (tag : Tag) (n : Node) : Option String :=
  match n.shown how with
  | .scalar .bare _ text => some text
  | .scalar .literal t text => if t == tag then some text else none
  | _ => none

/-- a truth value -/
def asBool (how : Reading) (n : Node) : Option Bool :=
  (n.bareWord? how .bool).bind fun s =>
    if s == "true" || s == "True" || s == "TRUE" then some true
    else if s == "false" || s == "False" || s == "FALSE" then some false
    else none

/-- the value of a run of digits in a base, of at least one digit -/
def inBase (base : Nat) (s : List Char) : Option Nat :=
  if s.isEmpty then none
  else
    s.foldl (fun acc c => acc.bind fun n =>
      ((Json.hexDigit? c).filter (· < base)).map (n * base + ·)) (some 0)

/-- a natural below 2^64, in decimal without leading zeros or with the mark of its base -/
def asCount (how : Reading) (n : Node) : Option Nat :=
  (n.bareWord? how .int).bind fun s =>
    let digits := match s.toList with
      | '+' :: rest => rest
      | rest => rest
    let n := match digits with
      | '0' :: 'x' :: rest => inBase 16 rest
      | '0' :: 'o' :: rest => inBase 8 rest
      | '0' :: 'b' :: rest => inBase 2 rest
      | ['0'] => some 0
      | '0' :: _ => none
      | rest => inBase 10 rest
    n.filter (· ≤ Number.maxCount)

/-- the items of a list -/
def asList (how : Reading) (n : Node) : Option (List Node) :=
  match n.shown how with
  | .list items => some items
  | _ => if n.isVoid how then some [] else none

/-- the entries of a table, whose keys are texts; a later entry replaces an earlier one when the table is built -/
def asEntries (how : Reading) (n : Node) : Option (List (String × Node)) :=
  match n.shown how with
  | .table entries => entries.mapM fun (key, value) => (key.asText how).map fun k => (k, value)
  | _ => if n.isVoid how then some [] else none

/-- the one entry of that name; nothing if there are several -/
def uniqueField (entries : List (String × Node)) (name : String) : Option (Option Node) :=
  match entries.filter (fun e => e.1 == name) with
  | [] => some none
  | [(_, n)] => some (some n)
  | _ => none

/-- the named fields of a record, in the order of the names; other fields are passed over -/
def asRecord (how : Reading) (names : List String) (n : Node) : Option (List (Option Node)) :=
  match how, n with
  | .strict, .list items =>
    if items.length ≤ names.length then
      some ((List.range names.length).map fun i => items[i]?)
    else none
  | how, n => (n.asEntries how).bind fun entries => names.mapM (uniqueField entries)

end Node

end EntitySearch
