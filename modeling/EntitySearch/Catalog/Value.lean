/-
Typed values, the kinds of property they belong to, and the conversion of a literal to a kind.

A text literal is taken as it is; for the other kinds blanks around it do not count. `Value.text` is the running text
of a value, `Value.toJson` the form it takes in a search request, where a double that is not finite becomes null.
`Value.ofJson?` reads a value without a declared kind: a text that reads as a date is a date.
-/
import EntitySearch.Calendar.Reading
import EntitySearch.Json.Value
import EntitySearch.Number.Layout

namespace EntitySearch

open Calendar (Date)

/-- a typed value -/
inductive Value where
  | bool (value : Bool)
  | long (value : Int)
  | double (value : Double)
  | date (value : Date)
  | string (value : String)
  deriving DecidableEq

/-- the kind of a property -/
inductive Kind where
  | string
  | long
  | double
  | bool
  | date
  | embedded
  deriving DecidableEq, Repr

namespace Kind

def name : Kind → String
  | .string => "string"
  | .long => "long"
  | .double => "double"
  | .bool => "boolean"
  | .date => "date"
  | .embedded => "embedded"

def all : List Kind := [.string, .long, .double, .bool, .date, .embedded]

def ofName? (name : String) : Option Kind := all.find? fun k => k.name == name

/-- why a literal is not a value of the kind -/
inductive Mismatch where
  | long (literal : String)
  | double (literal : String)
  | bool (literal : String)
  | date (literal : String) (cause : Calendar.DateError)
  | embedded (literal : String)

def Mismatch.message : Mismatch → String
  | .long literal => s!"Invalid long: '{literal}'"
  | .double literal => s!"Invalid double: '{literal}'"
  | .bool literal => s!"Invalid boolean: '{literal}' (expected: true or false)"
  | .date literal cause => s!"Invalid date: '{literal}' ({cause.message})"
  | .embedded literal => s!"Cannot convert '{literal}' to an embedded entity"

/-- the truth value that a word stands for, its case left aside -/
def boolOf (s : List Char) : Option Bool :=
  if Text.sameWord s "true".toList then some true
  else if Text.sameWord s "false".toList then some false
  else none

/-- the value of a literal in a property of the kind -/
def convert (kind : Kind) (literal : String) : Except Mismatch Value :=
  let trimmed := (Text.trim literal).toList
  match kind with
  | .string => .ok (.string literal)
  | .long =>
    match Number.readLong trimmed with
    | some n => .ok (.long n)
    | none => .error (.long literal)
  | .double =>
    match Number.readDouble trimmed with
    | some x => .ok (.double x)
    | none => .error (.double literal)
  | .bool =>
    match boolOf trimmed with
    | some b => .ok (.bool b)
    | none => .error (.bool literal)
  | .date =>
    match Calendar.readStrict trimmed with
    | .ok d => .ok (.date d)
    | .error cause => .error (.date literal cause)
  | .embedded => .error (.embedded literal)

end Kind

namespace Value

/-- the running text -/
def text : Value → String
  | .bool b => if b then "true" else "false"
  | .long n => toString n
  | .double x => Number.plain x
  | .date d => d.text
  | .string s => s

/-- the kind whose values it is one of -/
def kind : Value → Kind
  | .bool _ => .bool
  | .long _ => .long
  | .double _ => .double
  | .date _ => .date
  | .string _ => .string

/-- the text of a value that is a text -/
def asText? : Value → Option String
  | .string s => some s
  | _ => none

/-- the value inside a search request -/
def toJson : Value → Json
  | .bool b => .bool b
  | .long n => .int n
  | .double x => Json.ofDouble x
  | .date d => .text d.text
  | .string s => .text s

/-- a value of no declared kind; a text that reads as a date is a date -/
def ofJson? : Json → Option Value
  | .bool b => some (.bool b)
  | .int n => some (if Number.minLong ≤ n && n ≤ Number.maxLong then .long n else .double (Double.ofInt n))
  | .double x => some (.double x)
  | .text s =>
    match Calendar.readLoose s.toList with
    | .ok d => some (.date d)
    | .error _ => some (.string s)
  | _ => none

end Value

end EntitySearch
