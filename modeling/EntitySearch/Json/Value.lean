/-
JSON values with the members of an object in order.

An object is a list of members; `put` keeps the place of a key that is already there. Integers and doubles are told
apart.
-/
import EntitySearch.Number.Double

namespace EntitySearch

/-- a JSON value -/
inductive Json where
  | null
  | bool (value : Bool)
  | int (value : Int)
  | double (value : Double)
  | text (value : String)
  | list (items : List Json)
  | object (members : List (String × Json))
  deriving Repr, Inhabited

namespace Json

/-- the members with `key` set to `value`: in place if the key is there, behind the others if not -/
def put (key : String) (value : Json) : List (String × Json) → List (String × Json)
  | [] => [(key, value)]
  | (k, v) :: rest => if k == key then (k, value) :: rest else (k, v) :: put key value rest

/-- the value of a member -/
def get? (key : String) : Json → Option Json
  | .object members => members.lookup key
  | _ => none

/-- an object with one member -/
def one (key : String) (value : Json) : Json := .object [(key, value)]

/-- a list of texts -/
def texts (items : List String) : Json := .list (items.map .text)

/-- a double as a number; what is not finite has none -/
def ofDouble (x : Double) : Json := if x.isFinite then .double x else .null

end Json

end EntitySearch
