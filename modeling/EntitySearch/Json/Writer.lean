/-
JSON text: compact, or spread over lines with two blanks for each level.

Only quotes, backslashes and control characters are escaped. An empty list or object takes no line of its own.
-/
import EntitySearch.Json.Value
import EntitySearch.Number.Layout

namespace EntitySearch.Json

/-- a character inside a quoted text -/
def escape (c : Char) : List Char :=
  match c with
  | '"' => ['\\', '"']
  | '\\' => ['\\', '\\']
  | '\n' => ['\\', 'n']
  | '\r' => ['\\', 'r']
  | '\t' => ['\\', 't']
  | c =>
    if c.toNat == 8 then ['\\', 'b']
    else if c.toNat == 12 then ['\\', 'f']
    else if c.toNat < 32 then "\\u00".toList ++ (Number.hexByte c.toNat).toList
    else [c]

/-- a text between double quotes -/
def quote (s : String) : String := "\"" ++ String.ofList (s.toList.flatMap escape) ++ "\""

/-- a value that holds no others -/
def scalarText : Json → String
  | .null => "null"
  | .bool b => if b then "true" else "false"
  | .int n => toString n
  | .double (.finite negative m e) => Number.exact negative m e
  | .double _ => "null"
  | .text s => quote s
  | .list _ => "[]"
  | .object _ => "\x7b\x7d"

mutual

/-- the text on one line without blanks -/
def compact : Json → String
  | .list items => "[" ++ ",".intercalate (compactItems items) ++ "]"
  | .object members => "\x7b" ++ ",".intercalate (compactMembers members) ++ "\x7d"
  | v => scalarText v

def compactItems : List Json → List String
  | [] => []
  | v :: rest => compact v :: compactItems rest

def compactMembers : List (String × Json) → List String
  | [] => []
  | (k, v) :: rest => (quote k ++ ":" ++ compact v) :: compactMembers rest

end

/-- lines between an opening and a closing bracket, indented one level deeper than the brackets -/
def block (level : Nat) (opening closing : String) (lines : List String) : String :=
  if lines.isEmpty then opening ++ closing
  else
    let margin := "\n" ++ "".pushn ' ' (2 * level)
    opening ++ ",".intercalate (lines.map fun line => margin ++ "  " ++ line) ++ margin ++ closing

mutual

/-- the text over several lines, at a level of indentation -/
def prettyAt (level : Nat) : Json → String
  | .list items => block level "[" "]" (prettyItems level items)
  | .object members => block level "\x7b" "\x7d" (prettyMembers level members)
  | v => scalarText v

def prettyItems (level : Nat) : List Json → List String
  | [] => []
  | v :: rest => prettyAt (level + 1) v :: prettyItems level rest

def prettyMembers (level : Nat) : List (String × Json) → List String
  | [] => []
  | (k, v) :: rest => (quote k ++ ": " ++ prettyAt (level + 1) v) :: prettyMembers level rest

end

/-- the text over several lines -/
def pretty (v : Json) : String := prettyAt 0 v

end EntitySearch.Json
