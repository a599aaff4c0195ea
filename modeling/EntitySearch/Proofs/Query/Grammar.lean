/-
The grammar of queries, from the side of the writer.

A statement tree is `WellFormed` when it keeps to what can be written: names are identifiers, the first name of a path,
an entity and an alias are no reserved words, lists are not empty, and an And or an Or has at least two parts. A
`Written` relation says of each part of a tree which tokens are a way to write it. There are several for one tree:
words in any case, `<>` or `!=`, words that may be left out, and parentheses that are not needed. `Phrase level n`
binds as the level says, with NOTs and parentheses at most `n` deep. `Laid` puts tokens into a text, with any run of
gaps between two of them, and at least one gap where a token that ends in a character of a name would run into the
next.
-/
import EntitySearch.Query.Reader.Statement
import Mathlib

namespace EntitySearch

/-! ## Well-formed trees -/

namespace Query

/-- a character that may begin a name, and then characters that may stand in one -/
def isIdentifier (x : String) : Bool :=
  match x.toList with
  | [] => false
  | c :: cs => Text.startsName c && cs.all Text.isNameChar

/-- at least one character, all of which may stand in a name -/
def isParameterName (x : String) : Bool := !x.toList.isEmpty && x.toList.all Text.isNameChar

/-- at least one character, all of which are decimal digits -/
def IsDigits (s : List Char) : Prop := s ≠ [] ∧ ∀ c ∈ s, c.isDigit = true

/-- digits, or digits, a point and digits -/
inductive IsUnsigned : List Char → Prop where
  | whole {d : List Char} : IsDigits d → IsUnsigned d
  | decimal {d e : List Char} : IsDigits d → IsDigits e → IsUnsigned (d ++ '.' :: e)

/-- an unsigned number, perhaps with a minus sign before it -/
inductive IsNumeral : List Char → Prop where
  | positive {s : List Char} : IsUnsigned s → IsNumeral s
  | negative {s : List Char} : IsUnsigned s → IsNumeral ('-' :: s)

/-- identifiers, the first of which is no reserved word -/
def IsPath : List String → Prop
  | [] => False
  | first :: rest => isIdentifier first = true ∧ isReserved first = false ∧ ∀ x ∈ rest, isIdentifier x = true

/-- an identifier that is no reserved word -/
def IsAlias (a : String) : Prop := isIdentifier a = true ∧ isReserved a = false

/-- identifiers joined by full stops, together no reserved word -/
def IsEntityName (e : String) : Prop :=
  (∃ names, names ≠ [] ∧ (∀ x ∈ names, isIdentifier x = true) ∧ e = Text.dotted names) ∧ isReserved e = false

/-- a number behind a question mark fits 32 bits -/
def IsPosition (position : Option Nat) : Prop := ∀ n ∈ position, n ≤ 4294967295

end Query

open Query

def Index.WellFormed : Index → Prop
  | .string _ => True
  | .number digits => IsNumeral digits.toList
  | .named name => isParameterName name = true
  | .positional position => IsPosition position
  | .path segments => IsPath segments

def PathExpr.WellFormed (p : PathExpr) : Prop := IsPath p.segments ∧ ∀ i ∈ p.index, i.WellFormed

def Operand.WellFormed : Operand → Prop
  | .path p => p.WellFormed
  | .aggregate a => a.path.WellFormed
  | .literal (.number digits) => IsNumeral digits.toList
  | .literal _ => True
  | .named name => isParameterName name = true
  | .positional position => IsPosition position

namespace Condition

mutual

def WellFormed : Condition Operand → Prop
  | .and cs => 2 ≤ cs.length ∧ AllWellFormed cs
  | .or cs => 2 ≤ cs.length ∧ AllWellFormed cs
  | .not c => WellFormed c
  | .compare _ left right => left.WellFormed ∧ right.WellFormed
  | .between operand lower upper _ => operand.WellFormed ∧ lower.WellFormed ∧ upper.WellFormed
  | .among operand values _ => operand.WellFormed ∧ values ≠ [] ∧ ∀ v ∈ values, v.WellFormed
  | .like operand pattern _ _ => operand.WellFormed ∧ pattern.WellFormed
  | .isNull operand _ => operand.WellFormed

def AllWellFormed : List (Condition Operand) → Prop
  | [] => True
  | c :: rest => WellFormed c ∧ AllWellFormed rest

end

end Condition

def SelectItem.WellFormed : SelectItem → Prop
  | .path p => p.WellFormed
  | .aggregate a => a.path.WellFormed

def Source.WellFormed (s : Source) : Prop := IsEntityName s.entity ∧ ∀ a ∈ s.name, IsAlias a

def Join.WellFormed (j : Join) : Prop := j.path.WellFormed ∧ IsAlias j.name

/-- a list that is there has elements, and all of them are well formed -/
def ListWellFormed {α : Type} (P : α → Prop) (as : List α) : Prop := as ≠ [] ∧ ∀ a ∈ as, P a

/-- **What a query that can be written keeps to.** -/
structure Statement.WellFormed (q : Statement) : Prop where
  select : ∀ s ∈ q.select, ListWellFormed SelectItem.WellFormed s.items
  sources : ListWellFormed Source.WellFormed q.sources
  joins : ∀ j ∈ q.joins, j.WellFormed
  filter : ∀ c ∈ q.filter, c.WellFormed
  groupBy : ∀ paths ∈ q.groupBy, ListWellFormed PathExpr.WellFormed paths
  having : ∀ c ∈ q.having, c.WellFormed
  orderBy : ∀ items ∈ q.orderBy, ListWellFormed (fun item => item.path.WellFormed) items

/-! ## Tokens -/

namespace Query

/-- characters that are written together, the first of which is no gap -/
structure Token where
  first : Char
  rest : List Char
  solid : Text.isGap first = false

def Token.chars (t : Token) : List Char := t.first :: t.rest

namespace Token

def opening : Token := ⟨'(', [], rfl⟩

def closing : Token := ⟨')', [], rfl⟩

def openingIndex : Token := ⟨'[', [], rfl⟩

def closingIndex : Token := ⟨']', [], rfl⟩

def comma : Token := ⟨',', [], rfl⟩

def semicolon : Token := ⟨';', [], rfl⟩

end Token

/-- a word of the grammar in any case -/
def Keyword (word : String) (t : Token) : Prop := Text.lower t.chars = Text.lower word.toList

/-- a text as it stands -/
def Plain (x : String) (t : Token) : Prop := t.chars = x.toList

/-- every quote in a text twice -/
def doubled : List Char → List Char
  | [] => []
  | '\'' :: s => '\'' :: '\'' :: doubled s
  | c :: s => c :: doubled s

/-- a text between quotes -/
def quotedToken (s : String) : Token := ⟨'\'', doubled s.toList ++ ['\''], rfl⟩

/-- a colon and the name of a parameter -/
def namedToken (name : String) : Token := ⟨':', name.toList, rfl⟩

/-- a question mark, with the digits of the number if there is one -/
inductive WrittenPosition : Option Nat → Token → Prop where
  | none : WrittenPosition none ⟨'?', [], rfl⟩
  | some {n : Nat} {digits : List Char} : IsDigits digits → Number.digits? digits = some n →
      WrittenPosition (some n) ⟨'?', digits, rfl⟩

/-! ## Operands -/

inductive WrittenIndex : Index → Token → Prop where
  | string (s : String) : WrittenIndex (.string s) (quotedToken s)
  | number {digits : String} {t : Token} : Plain digits t → WrittenIndex (.number digits) t
  | named (name : String) : WrittenIndex (.named name) (namedToken name)
  | positional {position : Option Nat} {t : Token} : WrittenPosition position t →
      WrittenIndex (.positional position) t
  | path {segments : List String} {t : Token} : Plain (Text.dotted segments) t → WrittenIndex (.path segments) t

inductive WrittenPath : PathExpr → List Token → Prop where
  | plain {segments : List String} {t : Token} : Plain (Text.dotted segments) t → WrittenPath ⟨segments, none⟩ [t]
  | indexed {segments : List String} {i : Index} {t u : Token} : Plain (Text.dotted segments) t → WrittenIndex i u →
      WrittenPath ⟨segments, some i⟩ [t, .openingIndex, u, .closingIndex]

/-- a word that says yes by being there -/
inductive WrittenFlag (word : String) : Bool → List Token → Prop where
  | absent : WrittenFlag word false []
  | present {t : Token} : Keyword word t → WrittenFlag word true [t]

/-- the name of an aggregate in the grammar -/
def aggregateWord : AggregateName → String
  | .sum => "SUM"
  | .avg => "AVG"
  | .min => "MIN"
  | .max => "MAX"
  | .count => "COUNT"

inductive WrittenAggregate : AggregateExpr → List Token → Prop where
  | mk {function : AggregateName} {distinct : Bool} {path : PathExpr} {t : Token} {flag ts : List Token} :
      Keyword (aggregateWord function) t → WrittenFlag "DISTINCT" distinct flag → WrittenPath path ts →
      WrittenAggregate ⟨function, distinct, path⟩ (t :: .opening :: (flag ++ (ts ++ [.closing])))

inductive WrittenOperand : Operand → List Token → Prop where
  | string (s : String) : WrittenOperand (.literal (.string s)) [quotedToken s]
  | number {digits : String} {t : Token} : Plain digits t → WrittenOperand (.literal (.number digits)) [t]
  | bool {value : Bool} {t : Token} : Keyword (if value then "TRUE" else "FALSE") t →
      WrittenOperand (.literal (.bool value)) [t]
  | named (name : String) : WrittenOperand (.named name) [namedToken name]
  | positional {position : Option Nat} {t : Token} : WrittenPosition position t →
      WrittenOperand (.positional position) [t]
  | aggregate {a : AggregateExpr} {ts : List Token} : WrittenAggregate a ts → WrittenOperand (.aggregate a) ts
  | path {p : PathExpr} {ts : List Token} : WrittenPath p ts → WrittenOperand (.path p) ts

/-! ## Conditions -/

/-- elements with commas between them -/
inductive WrittenList {α : Type} (P : α → List Token → Prop) : List α → List Token → Prop where
  | one {a : α} {ts : List Token} : P a ts → WrittenList P [a] ts
  | cons {a : α} {as : List α} {ts us : List Token} : P a ts → WrittenList P as us →
      WrittenList P (a :: as) (ts ++ .comma :: us)

inductive WrittenRelation : Relation → Token → Prop where
  | equal : WrittenRelation .equal ⟨'=', [], rfl⟩
  | notEqual : WrittenRelation .notEqual ⟨'<', ['>'], rfl⟩
  | notEqual' : WrittenRelation .notEqual ⟨'!', ['='], rfl⟩
  | less : WrittenRelation .less ⟨'<', [], rfl⟩
  | lessOrEqual : WrittenRelation .lessOrEqual ⟨'<', ['='], rfl⟩
  | greater : WrittenRelation .greater ⟨'>', [], rfl⟩
  | greaterOrEqual : WrittenRelation .greaterOrEqual ⟨'>', ['='], rfl⟩

inductive WrittenEscape : Option Char → List Token → Prop where
  | none : WrittenEscape none []
  | some (c : Char) {t : Token} : Keyword "ESCAPE" t →
      WrittenEscape (some c) [t, quotedToken (String.ofList [c])]

/-- a single test -/
inductive WrittenTest : Condition Operand → List Token → Prop where
  | compare {r : Relation} {left right : Operand} {ls rs : List Token} {t : Token} : WrittenOperand left ls →
      WrittenRelation r t → WrittenOperand right rs → WrittenTest (.compare r left right) (ls ++ t :: rs)
  | between {operand lower upper : Operand} {negated : Bool} {os flag ls us : List Token} {t u : Token} :
      WrittenOperand operand os → WrittenFlag "NOT" negated flag → Keyword "BETWEEN" t → WrittenOperand lower ls →
      Keyword "AND" u → WrittenOperand upper us →
      WrittenTest (.between operand lower upper negated) (os ++ (flag ++ t :: (ls ++ u :: us)))
  | among {operand : Operand} {values : List Operand} {negated : Bool} {os flag vs : List Token} {t : Token} :
      WrittenOperand operand os → WrittenFlag "NOT" negated flag → Keyword "IN" t →
      WrittenList WrittenOperand values vs →
      WrittenTest (.among operand values negated) (os ++ (flag ++ t :: .opening :: (vs ++ [.closing])))
  | like {operand pattern : Operand} {escape : Option Char} {negated : Bool} {os flag ps es : List Token} {t : Token} :
      WrittenOperand operand os → WrittenFlag "NOT" negated flag → Keyword "LIKE" t → WrittenOperand pattern ps →
      WrittenEscape escape es →
      WrittenTest (.like operand pattern escape negated) (os ++ (flag ++ t :: (ps ++ es)))
  | isNull {operand : Operand} {negated : Bool} {os flag : List Token} {t u : Token} : WrittenOperand operand os →
      Keyword "IS" t → WrittenFlag "NOT" negated flag → Keyword "NULL" u →
      WrittenTest (.isNull operand negated) (os ++ t :: (flag ++ [u]))

/-- how tightly a condition binds: OR, AND, and NOT with whatever binds tighter -/
inductive Level where
  | disjunction
  | conjunction
  | negation

mutual

/-- the ways to write a condition with a binding, with NOTs and parentheses at most `n` deep -/
inductive Phrase : Level → (n : Nat) → Condition Operand → List Token → Prop where
  | or {n : Nat} {cs : List (Condition Operand)} {ts : List Token} : Chain "OR" .conjunction n cs ts →
      Phrase .disjunction n (.or cs) ts
  | and {n : Nat} {cs : List (Condition Operand)} {ts : List Token} : Chain "AND" .negation n cs ts →
      Phrase .conjunction n (.and cs) ts
  | not {n : Nat} {c : Condition Operand} {t : Token} {ts : List Token} : Keyword "NOT" t → Phrase .negation n c ts →
      Phrase .negation (n + 1) (.not c) (t :: ts)
  | parentheses {n : Nat} {c : Condition Operand} {ts : List Token} : Phrase .disjunction n c ts →
      Phrase .negation (n + 1) c (.opening :: (ts ++ [.closing]))
  | test {n : Nat} {c : Condition Operand} {ts : List Token} : WrittenTest c ts → Phrase .negation n c ts
  /-- what binds as tightly as AND need not be joined by OR -/
  | conjunction {n : Nat} {c : Condition Operand} {ts : List Token} : Phrase .conjunction n c ts →
      Phrase .disjunction n c ts
  /-- what binds as tightly as NOT need not be joined by AND -/
  | negation {n : Nat} {c : Condition Operand} {ts : List Token} : Phrase .negation n c ts →
      Phrase .conjunction n c ts

/-- conditions with a word between them -/
inductive Chain : (word : String) → Level → (n : Nat) → List (Condition Operand) → List Token → Prop where
  | one {word : String} {level : Level} {n : Nat} {c : Condition Operand} {ts : List Token} : Phrase level n c ts →
      Chain word level n [c] ts
  | cons {word : String} {level : Level} {n : Nat} {c : Condition Operand} {cs : List (Condition Operand)} {t : Token}
      {ts us : List Token} : Phrase level n c ts → Keyword word t → Chain word level n cs us →
      Chain word level n (c :: cs) (ts ++ t :: us)

end

/-! ## Statements -/

inductive WrittenItem : SelectItem → List Token → Prop where
  | path {p : PathExpr} {ts : List Token} : WrittenPath p ts → WrittenItem (.path p) ts
  | aggregate {a : AggregateExpr} {ts : List Token} : WrittenAggregate a ts → WrittenItem (.aggregate a) ts

inductive WrittenSelect : Select → List Token → Prop where
  | mk {distinct : Bool} {items : List SelectItem} {t : Token} {flag ts : List Token} : Keyword "SELECT" t →
      WrittenFlag "DISTINCT" distinct flag → WrittenList WrittenItem items ts →
      WrittenSelect ⟨distinct, items⟩ (t :: (flag ++ ts))

/-- an alias, perhaps with AS before it -/
inductive WrittenAlias : String → List Token → Prop where
  | mk {a : String} {as : Bool} {flag : List Token} {t : Token} : WrittenFlag "AS" as flag → Plain a t →
      WrittenAlias a (flag ++ [t])

inductive WrittenSource : Source → List Token → Prop where
  | bare {e : String} {t : Token} : Plain e t → WrittenSource ⟨e, none⟩ [t]
  | named {e a : String} {t : Token} {ts : List Token} : Plain e t → WrittenAlias a ts →
      WrittenSource ⟨e, some a⟩ (t :: ts)

/-- whether a join is an outer one -/
inductive WrittenKind : Bool → List Token → Prop where
  | left {t : Token} {word : Bool} {flag : List Token} : Keyword "LEFT" t → WrittenFlag "OUTER" word flag →
      WrittenKind true (t :: flag)
  | inner {word : Bool} {flag : List Token} : WrittenFlag "INNER" word flag → WrittenKind false flag

inductive WrittenJoin : Join → List Token → Prop where
  | mk {outer fetch : Bool} {path : PathExpr} {name : String} {t : Token} {kind flag ps as : List Token} :
      WrittenKind outer kind → Keyword "JOIN" t → WrittenFlag "FETCH" fetch flag → WrittenPath path ps →
      WrittenAlias name as → WrittenJoin ⟨outer, fetch, path, name⟩ (kind ++ t :: (flag ++ (ps ++ as)))

/-- joins one after the other -/
inductive WrittenJoins : List Join → List Token → Prop where
  | nil : WrittenJoins [] []
  | cons {j : Join} {js : List Join} {ts us : List Token} : WrittenJoin j ts → WrittenJoins js us →
      WrittenJoins (j :: js) (ts ++ us)

/-- an order is ascending unless it says otherwise -/
inductive WrittenOrder : OrderItem → List Token → Prop where
  | ascending {p : PathExpr} {ts flag : List Token} {word : Bool} : WrittenPath p ts → WrittenFlag "ASC" word flag →
      WrittenOrder ⟨p, true⟩ (ts ++ flag)
  | descending {p : PathExpr} {ts : List Token} {t : Token} : WrittenPath p ts → Keyword "DESC" t →
      WrittenOrder ⟨p, false⟩ (ts ++ [t])

/-- a clause that begins with certain words, or is left out -/
inductive WrittenClause {α : Type} (words : List String) (P : α → List Token → Prop) :
    Option α → List Token → Prop where
  | absent : WrittenClause words P none []
  | present {a : α} {ws ts : List Token} : List.Forall₂ Keyword words ws → P a ts →
      WrittenClause words P (some a) (ws ++ ts)

/-- what may end a query -/
inductive WrittenEnd : List Token → Prop where
  | nothing : WrittenEnd []
  | semicolon : WrittenEnd [.semicolon]

/-- **The ways to write a query** with NOTs and parentheses at most `n` deep. -/
inductive Written (n : Nat) : Statement → List Token → Prop where
  | mk {select : Option Select} {sources : List Source} {joins : List Join} {filter having : Option (Condition Operand)}
      {groupBy : Option (List PathExpr)} {orderBy : Option (List OrderItem)} {t : Token}
      {ss fs js ws gs hs os es : List Token} :
      WrittenClause [] WrittenSelect select ss → Keyword "FROM" t → WrittenList WrittenSource sources fs →
      WrittenJoins joins js →
      WrittenClause ["WHERE"] (Phrase .disjunction n) filter ws →
      WrittenClause ["GROUP", "BY"] (WrittenList WrittenPath) groupBy gs →
      WrittenClause ["HAVING"] (Phrase .disjunction n) having hs →
      WrittenClause ["ORDER", "BY"] (WrittenList WrittenOrder) orderBy os → WrittenEnd es →
      Written n ⟨select, sources, joins, filter, groupBy, having, orderBy⟩
        (ss ++ t :: (fs ++ (js ++ (ws ++ (gs ++ (hs ++ (os ++ es)))))))

/-! ## Texts -/

/-- spaces, tabs, line feeds and carriage returns -/
def AllGaps (s : List Char) : Prop := ∀ c ∈ s, Text.isGap c = true

/-- a token behind which a character of a name would be taken for a part of it -/
def EndsWord (t : Token) : Prop := t.first ≠ '?' ∧ ∃ c, t.chars.getLast? = some c ∧ Text.isNameChar c = true

/-- no character of a class stands at the front -/
def Clear (p : Char → Bool) (s : List Char) : Prop := ∀ c, s.head? = some c → p c = false

/-- **The texts of tokens**: gaps before, between and behind them, at least one where words would run together. -/
inductive Laid : List Token → List Char → Prop where
  | nil {g : List Char} : AllGaps g → Laid [] g
  | cons {g : List Char} {t : Token} {ts : List Token} {s : List Char} : AllGaps g →
      (EndsWord t → Clear Text.isNameChar s) → Laid ts s → Laid (t :: ts) (g ++ (t.chars ++ s))

end Query

end EntitySearch
