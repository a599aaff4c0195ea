/-
Reading conditions.

OR binds loosest, then AND, then NOT, then a single test; parentheses group. NOT and parentheses may be nested 64
deep: `negation room` reads with so many levels to go, and with none left it fails for good before it looks at the
text.
-/
import EntitySearch.Query.Reader.Operand

namespace EntitySearch.Query

/-- the greatest number of NOTs and parentheses around a test -/
def maxNesting : Nat := 64

/-! ## A single test -/

def relation : Reader Relation :=
  spaced
    (either (mapped (fun _ => .greaterOrEqual) (exactly ['>', '=']))
      (either (mapped (fun _ => .lessOrEqual) (exactly ['<', '=']))
        (either (mapped (fun _ => .notEqual) (exactly ['<', '>']))
          (either (mapped (fun _ => .notEqual) (exactly ['!', '=']))
            (either (mapped (fun _ => .greater) (exactly ['>']))
              (either (mapped (fun _ => .less) (exactly ['<'])) (mapped (fun _ => .equal) (exactly ['=']))))))))

/-- a text of exactly one character; the fault is where the gaps before the text begin -/
def escapeLiteral : Reader Char := fun s =>
  (spaced stringLiteral s).andThen fun text rest =>
    match text.toList with
    | [c] => .ok c rest
    | _ => .miss ⟨s, [.escapeLength]⟩

/-- what follows IS -/
def nullTest (subject : Operand) : Reader (Condition Operand) :=
  followed (present (keyword "NOT")) fun negated =>
    mapped (fun _ => .isNull subject negated) (require .nullAfterIs (keyword "NULL"))

/-- what follows BETWEEN -/
def rangeTest (subject : Operand) (negated : Bool) : Reader (Condition Operand) :=
  followed (require .lowerBound operand) fun lower =>
    andRead (require .andInBetween (keyword "AND"))
      (mapped (fun upper => .between subject lower upper negated) (require .upperBound operand))

/-- what follows IN -/
def listTest (subject : Operand) (negated : Bool) : Reader (Condition Operand) :=
  mapped (fun values => .among subject values negated)
    (require .valueList
      (andRead (spaced (sign '('))
        (thenDrop (separated (spaced (sign ',')) operand) (spaced (sign ')')))))

/-- what follows LIKE -/
def patternTest (subject : Operand) (negated : Bool) : Reader (Condition Operand) :=
  followed (require .pattern operand) fun pattern =>
    mapped (fun escape => .like subject pattern escape negated)
      (optional (andRead (keyword "ESCAPE") (require .escapeLiteral escapeLiteral)))

/-- what follows the first operand of a comparison -/
def comparison (subject : Operand) : Reader (Condition Operand) :=
  followed (blaming .operator relation) fun r =>
    mapped (fun right => .compare r subject right) (require .rightOperand operand)

/-- goes on with the continuation if the word is there, and with the other reader if not -/
def afterWord {α : Type} (word : String) (continuation other : Reader α) : Reader α := fun s =>
  match keyword word s with
  | .ok _ rest => continuation rest
  | _ => other s

/-- what follows the operand of a test, apart from IS: NOT or nothing, and then BETWEEN, IN or LIKE, or a comparison -/
def testTail (subject : Operand) : Reader (Condition Operand) := fun s =>
  (present (keyword "NOT") s).andThen fun negated rest =>
    afterWord "BETWEEN" (rangeTest subject negated)
      (afterWord "IN" (listTest subject negated)
        (afterWord "LIKE" (patternTest subject negated)
          (if negated then fun s => .fail ⟨s, [.afterNot]⟩ else fun _ => comparison subject s)))
      rest

/-- a single test -/
def test : Reader (Condition Operand) :=
  followed operand fun subject => afterWord "IS" (nullTest subject) (testTail subject)

/-! ## AND, OR, NOT and parentheses -/

/-- one condition stands for itself -/
def joined (connective : List (Condition Operand) → Condition Operand) (first : Condition Operand) :
    List (Condition Operand) → Condition Operand
  | [] => first
  | rest => connective (first :: rest)

/-- conditions with a word between them -/
def chain (word : String) (complaint : Complaint) (connective : List (Condition Operand) → Condition Operand)
    (part : Reader (Condition Operand)) : Reader (Condition Operand) :=
  followed part fun first =>
    mapped (joined connective first) (many (andRead (keyword word) (require complaint part)))

/-- a chain of ANDs -/
def conjunction (part : Reader (Condition Operand)) : Reader (Condition Operand) := chain "AND" .afterAnd .and part

/-- a chain of ORs between chains of ANDs -/
def disjunction (part : Reader (Condition Operand)) : Reader (Condition Operand) :=
  chain "OR" .afterOr .or (conjunction part)

/-- a condition between parentheses -/
def parenthesized (inner : Reader (Condition Operand)) : Reader (Condition Operand) :=
  andRead (spaced (sign '(')) (thenDrop inner (require .closingParenthesis (spaced (sign ')'))))

/-- a test, a negation, or a condition between parentheses, with so many levels to go -/
def negation : (room : Nat) → Reader (Condition Operand)
  | 0 => fun s => .fail ⟨s, [.tooDeep]⟩
  | room + 1 =>
    either (andRead (keyword "NOT") (firmly (mapped .not (negation room))))
      (either (parenthesized (disjunction (negation room))) test)

/-- a whole condition -/
def condition : Reader (Condition Operand) := disjunction (negation (maxNesting + 1))

end EntitySearch.Query
