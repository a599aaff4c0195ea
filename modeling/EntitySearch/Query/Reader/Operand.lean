/-
Reading literals, parameters, paths and aggregates.
-/
import EntitySearch.Query.Scan
import EntitySearch.Query.Statement
import EntitySearch.Number.Reading

namespace EntitySearch.Query

/-! ## Literals and parameters -/

/-- the text up to the quote that ends it, two quotes standing for one, and what follows; nothing without an end -/
def quotedRest : List Char → Option (List Char × List Char)
  | [] => none
  | '\'' :: '\'' :: s => (quotedRest s).map fun (t, r) => ('\'' :: t, r)
  | '\'' :: s => some ([], s)
  | c :: s => (quotedRest s).map fun (t, r) => (c :: t, r)

/-- a text between single quotes; without an end the fault is final and stands at the opening quote -/
def stringLiteral : Reader String
  | '\'' :: s =>
    match quotedRest s with
    | some (t, r) => .ok (String.ofList t) r
    | none => .fail ⟨'\'' :: s, [.unterminated]⟩
  | s => .miss ⟨s, []⟩

/-- digits, or digits, a point and digits -/
def unsignedNumber : Reader String :=
  either
    (followed (run Char.isDigit) fun whole =>
      andRead (sign '.') (mapped (fun part => whole ++ "." ++ part) (run Char.isDigit)))
    (run Char.isDigit)

/-- a number with an optional minus sign, which no name goes on from -/
def numberLiteral : Reader String := fun s =>
  let body : Reader String :=
    followed (present (sign '-')) fun negative => mapped (fun n => if negative then "-" ++ n else n) unsignedNumber
  (body s).andThen fun n rest => if rest.head?.any Text.isNameChar then .miss ⟨s, [.numeral]⟩ else .ok n rest

def boolLiteral : Reader Bool :=
  either (mapped (fun _ => true) (keyword "TRUE")) (mapped (fun _ => false) (keyword "FALSE"))

/-- the name of a parameter behind a colon -/
def namedParameter : Reader String := andRead (sign ':') (run Text.isNameChar)

/-- the number behind a question mark, if it fits 32 bits -/
def parameterNumber (digits : String) : Option Nat := (Number.digits? digits.toList).filter (· ≤ 4294967295)

/-- a question mark, perhaps with a number -/
def positionalParameter : Reader (Option Nat) :=
  andRead (sign '?') (mapped (fun digits => digits.bind parameterNumber) (optional (run Char.isDigit)))

/-! ## Paths and aggregates -/

/-- a path without an index; its first name is no reserved word -/
def plainPath : Reader (List String) :=
  andRead gaps fun s =>
    (name s).andThen fun first rest =>
      if isReserved first then .miss ⟨s, [.path]⟩
      else thenDrop (mapped (first :: ·) (many (andRead (sign '.') name))) gaps rest

/-- what may stand between brackets -/
def indexOperand : Reader Index :=
  spaced
    (either (mapped .string stringLiteral)
      (either (mapped .number numberLiteral)
        (either (mapped .named namedParameter)
          (either (mapped .positional positionalParameter) (mapped .path plainPath)))))

/-- an index between brackets -/
def bracketed : Reader Index :=
  andRead (spaced (sign '['))
    (thenDrop (require .index indexOperand) (require .closingBracket (spaced (sign ']'))))

/-- a path, perhaps with an index behind it -/
def pathExpr : Reader PathExpr :=
  followed plainPath fun segments => mapped (fun index => ⟨segments, index⟩) (optional bracketed)

/-- the name of an aggregate -/
def aggregateName : Reader AggregateName :=
  either (mapped (fun _ => .sum) (keyword "SUM"))
    (either (mapped (fun _ => .avg) (keyword "AVG"))
      (either (mapped (fun _ => .min) (keyword "MIN"))
        (either (mapped (fun _ => .max) (keyword "MAX")) (mapped (fun _ => .count) (keyword "COUNT")))))

/-- an aggregate; without the opening parenthesis its name may be that of a property -/
def aggregateExpr : Reader AggregateExpr :=
  followed aggregateName fun function =>
    andRead (spaced (sign '('))
      (followed (present (keyword "DISTINCT")) fun distinct =>
        thenDrop (mapped (fun path => ⟨function, distinct, path⟩) (require .aggregatePath pathExpr))
          (require .closingParenthesis (spaced (sign ')'))))

/-- an operand of a condition -/
def operand : Reader Operand :=
  spaced
    (either (mapped (fun s => .literal (.string s)) stringLiteral)
      (either (mapped (fun n => .literal (.number n)) numberLiteral)
        (either (mapped (fun b => .literal (.bool b)) boolLiteral)
          (either (mapped .named namedParameter)
            (either (mapped .positional positionalParameter)
              (either (mapped .aggregate aggregateExpr) (mapped .path pathExpr)))))))

end EntitySearch.Query
