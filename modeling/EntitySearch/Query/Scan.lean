/-
The means by which a query text is read.

A reader takes characters from the front of the text. It either succeeds with a value and the rest, or misses, in
which case an alternative may still fit, or fails for good. A fault knows what was left of the text where the
innermost trouble arose, and the complaints raised on the way out from there.

`many` and `separated` stop before an element that misses; `optional` turns a miss into nothing; `firm` makes a miss
final.
-/
import EntitySearch.Text.Basic

namespace EntitySearch.Query

/-- what a reader expected -/
inductive Complaint where
  | fromClause
  | selectItems
  | sources
  | joinPath
  | joinAlias
  | inWhere
  | inGroupBy
  | inHaving
  | inOrderBy
  | byAfterGroup
  | byAfterOrder
  | afterOr
  | afterAnd
  | tooDeep
  | closingParenthesis
  | nullAfterIs
  | lowerBound
  | andInBetween
  | upperBound
  | valueList
  | pattern
  | escapeLiteral
  | escapeLength
  | afterNot
  | operator
  | rightOperand
  | unterminated
  | numeral
  | aggregatePath
  | path
  | index
  | closingBracket
  | reservedAlias
  | entityName
  deriving DecidableEq, Repr

def Complaint.text : Complaint → String
  | .fromClause => "expected a FROM clause"
  | .selectItems => "Error in select clause: expected a property path or aggregate"
  | .sources => "Error in from clause: expected an entity name"
  | .joinPath => "Error in join: expected an association path"
  | .joinAlias => "Error in join: expected an alias"
  | .inWhere => "Error in where clause"
  | .inGroupBy => "Error in group by clause"
  | .inHaving => "Error in having clause"
  | .inOrderBy => "Error in order by clause"
  | .byAfterGroup => "expected BY after GROUP"
  | .byAfterOrder => "expected BY after ORDER"
  | .afterOr => "expected a predicate after OR"
  | .afterAnd => "expected a predicate after AND"
  | .tooDeep => "predicate nesting exceeds the maximum depth of 64"
  | .closingParenthesis => "expected ')'"
  | .nullAfterIs => "expected NULL after IS"
  | .lowerBound => "expected lower bound"
  | .andInBetween => "expected AND in BETWEEN"
  | .upperBound => "expected upper bound"
  | .valueList => "expected a parenthesized value list after IN"
  | .pattern => "expected LIKE pattern"
  | .escapeLiteral => "ESCAPE expects a single character literal"
  | .escapeLength => "escape must be exactly one character"
  | .afterNot => "expected BETWEEN, IN or LIKE after NOT"
  | .operator => "expected a comparison operator, BETWEEN, IN, LIKE or IS"
  | .rightOperand => "expected a right-hand operand"
  | .unterminated => "unterminated string literal"
  | .numeral => "malformed numeric literal"
  | .aggregatePath => "expected a property path inside the aggregate function"
  | .path => "expected a property path"
  | .index => "expected an index expression"
  | .closingBracket => "expected ']'"
  | .reservedAlias => "reserved keyword cannot be used as an alias"
  | .entityName => "expected an entity name"

/-- where reading stopped, and the complaints from the innermost outwards -/
structure Fault where
  rest : List Char
  complaints : List Complaint
  deriving DecidableEq, Repr

/-- the end of a reader's attempt -/
inductive Outcome (α : Type) where
  | ok (value : α) (rest : List Char)
  | miss (fault : Fault)
  | fail (fault : Fault)

/-- takes a value from the front of a text -/
abbrev Reader (α : Type) := List Char → Outcome α

namespace Outcome

variable {α β : Type}

def map (f : α → β) : Outcome α → Outcome β
  | .ok a rest => .ok (f a) rest
  | .miss fault => .miss fault
  | .fail fault => .fail fault

/-- goes on from the rest of the text -/
def andThen (o : Outcome α) (next : α → Reader β) : Outcome β :=
  match o with
  | .ok a rest => next a rest
  | .miss fault => .miss fault
  | .fail fault => .fail fault

/-- a miss becomes final -/
def firm : Outcome α → Outcome α
  | .miss fault => .fail fault
  | o => o

/-- adds a complaint to a fault -/
def blame (complaint : Complaint) : Outcome α → Outcome α
  | .miss fault => .miss { fault with complaints := fault.complaints ++ [complaint] }
  | .fail fault => .fail { fault with complaints := fault.complaints ++ [complaint] }
  | o => o

/-- the second outcome in place of a miss -/
def orElse (o : Outcome α) (other : Outcome α) : Outcome α :=
  match o with
  | .miss _ => other
  | o => o

end Outcome

variable {α β : Type}

/-- a value, with nothing taken -/
def give (a : α) : Reader α := fun s => .ok a s

/-- one reader after the other, the second with the first one's value -/
def followed (p : Reader α) (next : α → Reader β) : Reader β := fun s => (p s).andThen next

/-- one reader after the other; the second one's value counts -/
def andRead (p : Reader α) (q : Reader β) : Reader β := followed p fun _ => q

/-- one reader after the other; the first one's value counts -/
def thenDrop (p : Reader α) (q : Reader β) : Reader α := followed p fun a => followed q fun _ => give a

def mapped (f : α → β) (p : Reader α) : Reader β := fun s => (p s).map f

/-- the first alternative that does not miss; if all do, the fault of the last -/
def either (p q : Reader α) : Reader α := fun s => (p s).orElse (q s)

/-- a miss is final -/
def firmly (p : Reader α) : Reader α := fun s => (p s).firm

/-- a fault gets one more complaint -/
def blaming (complaint : Complaint) (p : Reader α) : Reader α := fun s => (p s).blame complaint

/-- a miss is final and gets a complaint -/
def require (complaint : Complaint) (p : Reader α) : Reader α := blaming complaint (firmly p)

/-- nothing in place of a miss -/
def optional (p : Reader α) : Reader (Option α) := fun s => ((p s).map some).orElse (.ok none s)

/-- whether the reader fits -/
def present (p : Reader α) : Reader Bool := mapped Option.isSome (optional p)

/-- as many as there are; an element that takes nothing is a miss -/
def many (p : Reader α) (s : List Char) : Outcome (List α) :=
  match p s with
  | .miss _ => .ok [] s
  | .fail fault => .fail fault
  | .ok a rest => if _h : rest.length < s.length then (many p rest).map (a :: ·) else .miss ⟨s, []⟩
termination_by s.length

/-- the elements behind the first one, each with a separator before it -/
def separatedTail (separator : Reader β) (p : Reader α) (s : List Char) : Outcome (List α) :=
  match separator s with
  | .miss _ => .ok [] s
  | .fail fault => .fail fault
  | .ok _ between =>
    match p between with
    | .miss _ => .ok [] s
    | .fail fault => .fail fault
    | .ok a rest =>
      if _h : rest.length < s.length then (separatedTail separator p rest).map (a :: ·) else .miss ⟨s, []⟩
termination_by s.length

/-- one or more elements with separators between them -/
def separated (separator : Reader β) (p : Reader α) : Reader (List α) :=
  followed p fun a => mapped (a :: ·) (separatedTail separator p)

/-- the gaps at the front of the text -/
def gaps : Reader Unit := fun s => .ok () (s.dropWhile Text.isGap)

/-- gaps may stand on both sides -/
def spaced (p : Reader α) : Reader α := andRead gaps (thenDrop p gaps)

/-- a certain character -/
def sign (c : Char) : Reader Unit
  | [] => .miss ⟨[], []⟩
  | d :: rest => if d == c then .ok () rest else .miss ⟨d :: rest, []⟩

/-- a certain text -/
def exactly (word : List Char) : Reader Unit := fun s =>
  if word.isPrefixOf s then .ok () (s.drop word.length) else .miss ⟨s, []⟩

/-- the longest run of characters of a class, at least one -/
def run (inClass : Char → Bool) : Reader String := fun s =>
  if s.takeWhile inClass = [] then .miss ⟨s, []⟩
  else .ok (String.ofList (s.takeWhile inClass)) (s.dropWhile inClass)

/-! ## Words and names -/

/-- a keyword in any case that does not go on as a longer name, with gaps around it -/
def keyword (word : String) : Reader Unit :=
  spaced fun s =>
    match Text.dropWord word.toList s with
    | none => .miss ⟨s, []⟩
    | some rest => if rest.head?.any Text.isNameChar then .miss ⟨rest, []⟩ else .ok () rest

/-- the words that cannot be names -/
def reservedWords : List String :=
  ["SELECT", "DISTINCT", "FROM", "AS", "JOIN", "INNER", "LEFT", "OUTER", "FETCH", "WHERE", "GROUP", "BY", "HAVING",
    "ORDER", "ASC", "DESC", "AND", "OR", "NOT", "BETWEEN", "IN", "LIKE", "ESCAPE", "IS", "NULL", "TRUE", "FALSE"]

/-- the text is one of the reserved words, in any case -/
def isReserved (name : String) : Bool := reservedWords.any fun word => Text.sameWord word.toList name.toList

/-- a name: a character that may begin one and those that may follow -/
def name : Reader String
  | [] => .miss ⟨[], []⟩
  | c :: s =>
    if Text.startsName c then .ok (String.ofList (c :: s.takeWhile Text.isNameChar)) (s.dropWhile Text.isNameChar)
    else .miss ⟨c :: s, []⟩

/-- names joined by full stops, without gaps -/
def dottedNames : Reader (List String) :=
  followed name fun first => mapped (first :: ·) (many (andRead (sign '.') name))

/-- an alias, which is no reserved word; the fault of a reserved word is where the gaps before it begin -/
def aliasName : Reader String := fun s =>
  (spaced name s).andThen fun a rest => if isReserved a then .miss ⟨s, [.reservedAlias]⟩ else .ok a rest

/-- an entity's name, simple or qualified, which is no reserved word -/
def entityName : Reader String := fun s =>
  (spaced (mapped Text.dotted dottedNames) s).andThen fun e rest =>
    if isReserved e then .miss ⟨s, [.entityName]⟩ else .ok e rest

end EntitySearch.Query
