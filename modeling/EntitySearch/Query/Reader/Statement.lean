/-
Reading whole queries.

`statement` reads one query from the front of a text; `parse` takes a text that is one query and nothing else. A fault
becomes a syntax error at the byte where reading stopped, with the complaints from the innermost outwards.
-/
import EntitySearch.Query.Reader.Condition
import EntitySearch.Error

namespace EntitySearch.Query

/-- one or more, with commas between them -/
def listOf {α : Type} (p : Reader α) : Reader (List α) := separated (spaced (sign ',')) p

/-! ## Clauses -/

def selectItem : Reader SelectItem := either (mapped .aggregate aggregateExpr) (mapped .path pathExpr)

def selectClause : Reader Select :=
  andRead (keyword "SELECT")
    (followed (present (keyword "DISTINCT")) fun distinct =>
      mapped (fun items => ⟨distinct, items⟩) (require .selectItems (listOf selectItem)))

/-- an alias, perhaps with AS before it -/
def asAlias : Reader String := andRead (optional (keyword "AS")) aliasName

def source : Reader Source := followed entityName fun e => mapped (fun a => ⟨e, a⟩) (optional asAlias)

/-- LEFT, LEFT OUTER or INNER before JOIN; whether the join is an outer one -/
def joinKind : Reader Bool :=
  either (mapped (fun _ => true) (andRead (keyword "LEFT") (optional (keyword "OUTER"))))
    (mapped (fun _ => false) (keyword "INNER"))

def join : Reader Join :=
  followed (optional joinKind) fun outer =>
    andRead (keyword "JOIN")
      (followed (present (keyword "FETCH")) fun fetch =>
        followed (require .joinPath pathExpr) fun path =>
          mapped (fun a => ⟨outer.getD false, fetch, path, a⟩) (require .joinAlias asAlias))

def fromClause : Reader (List Source × List Join) :=
  andRead (keyword "FROM")
    (followed (require .sources (listOf source)) fun sources => mapped (fun joins => (sources, joins)) (many join))

def whereClause : Reader (Condition Operand) := andRead (keyword "WHERE") (require .inWhere condition)

def groupByClause : Reader (List PathExpr) :=
  andRead (keyword "GROUP")
    (andRead (require .byAfterGroup (keyword "BY")) (require .inGroupBy (listOf pathExpr)))

def havingClause : Reader (Condition Operand) := andRead (keyword "HAVING") (require .inHaving condition)

/-- ASC or DESC; whether the order is ascending -/
def direction : Reader Bool :=
  either (mapped (fun _ => true) (keyword "ASC")) (mapped (fun _ => false) (keyword "DESC"))

def orderItem : Reader OrderItem :=
  followed pathExpr fun path => mapped (fun ascending => ⟨path, ascending.getD true⟩) (optional direction)

def orderByClause : Reader (List OrderItem) :=
  andRead (keyword "ORDER")
    (andRead (require .byAfterOrder (keyword "BY")) (require .inOrderBy (listOf orderItem)))

/-! ## Queries -/

/-- one query at the front of the text, with a semicolon behind it if there is one -/
def statement : Reader Statement :=
  andRead gaps
    (followed (optional selectClause) fun select =>
      followed (require .fromClause fromClause) fun (sources, joins) =>
        followed (optional whereClause) fun filter =>
          followed (optional groupByClause) fun groupBy =>
            followed (optional havingClause) fun having =>
              followed (optional orderByClause) fun orderBy =>
                mapped (fun _ => ⟨select, sources, joins, filter, groupBy, having, orderBy⟩)
                  (optional (spaced (sign ';'))))

/-- the place of a fault in the text and what was expected there -/
def Fault.located (text : List Char) (fault : Fault) : SyntaxError where
  message :=
    if fault.complaints.isEmpty then "unable to parse query"
    else ": ".intercalate (fault.complaints.map Complaint.text)
  offset := Text.byteLength text - Text.byteLength fault.rest

/-- the error for text behind the query: its first twenty characters are shown -/
def trailing (text rest : List Char) : SyntaxError where
  message := s!"unexpected input near '{String.ofList (rest.take 20)}'"
  offset := Text.byteLength text - Text.byteLength rest

/-- the query that a text is -/
def parse (text : String) : Except SyntaxError Statement :=
  match statement text.toList with
  | .ok s [] => .ok s
  | .ok _ rest => .error (trailing text.toList rest)
  | .miss fault => .error (fault.located text.toList)
  | .fail fault => .error (fault.located text.toList)

end EntitySearch.Query
