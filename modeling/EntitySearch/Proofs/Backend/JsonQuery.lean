/-
What a store finds for a query in JSON.

`finds` reads a query by the rules of the store, without regard to where it came from: a `bool` asks for all of `must`,
none of `must_not`, and of `should` as many as `minimum_should_match` says; `term`, `terms`, `range`, `wildcard` and
`exists` look at the one value that a document may have in a field. How values compare is left open (`Comparison`), and
a test is true of a document by what the document has stored and the JSON that the test's values are stored as
(`stored`), which is the JSON that they are sent as (`toJson_eq_stored`).

`finds_interprets`: read so, the calls of the JSON factory mean what the calls of a factory are meant to. Hence
`render_finds`: a predicate tree without empty negations is rendered to a query, and that finds a document exactly when
the tree holds of it.
-/
import EntitySearch.Backend.JsonQuery
import EntitySearch.Proofs.Backend.Wildcard
import EntitySearch.Proofs.Predicate.Meaning
import EntitySearch.Proofs.Predicate.Whole

namespace EntitySearch.JsonQuery

open Json (one)

/-- how a store compares values, and which of them have a text that patterns are matched with -/
structure Comparison where
  equal : Json → Json → Bool
  less : Json → Json → Bool
  atMost : Json → Json → Bool
  text : Json → Option String

/-- a document: the value of each field, by its dotted name, if it has one -/
abbrev Document := String → Option Json

/-! ## The rules of the store -/

namespace Comparison

/-- a value is within a bound of a range -/
def within (r : Comparison) (value : Json) : String × Json → Bool
  | ("lt", bound) => r.less value bound
  | ("lte", bound) => r.atMost value bound
  | ("gt", bound) => r.less bound value
  | ("gte", bound) => r.atMost bound value
  | _ => false

/-- a value fits a wildcard pattern -/
def fits (r : Comparison) (value : Json) (pattern : String) : Bool :=
  (r.text value).any fun s => Wildcard.fits pattern.toList s.toList

end Comparison

/-- of the queries in `should`, how many must find the document -/
def minimum (clauses : List (String × Json)) : Int :=
  match clauses.lookup "minimum_should_match" with
  | some (.int n) => n
  | _ => 1

section

variable (r : Comparison) (d : Document)

mutual

/-- the query finds the document -/
def finds : Json → Bool
  | .object [("match_all", _)] => true
  | .object [("bool", .object clauses)] => findsClauses (minimum clauses) clauses
  | .object [("term", .object [(field, value)])] => (d field).any fun v => r.equal v value
  | .object [("terms", .object [(field, .list values)])] => (d field).any fun v => values.any fun w => r.equal v w
  | .object [("range", .object [(field, .object bounds)])] => (d field).any fun v => bounds.all (r.within v)
  | .object [("wildcard", .object [(field, .object [("value", .text pattern)])])] =>
    (d field).any fun v => r.fits v pattern
  | .object [("exists", .object [("field", .text field)])] => (d field).isSome
  | _ => false

/-- the clauses of a `bool` find the document, `should` with so many of its queries -/
def findsClauses (atLeast : Int) : List (String × Json) → Bool
  | [] => true
  | ("must", .list queries) :: rest => findsAll queries && findsClauses atLeast rest
  | ("must_not", .list queries) :: rest => findsNone queries && findsClauses atLeast rest
  | ("should", .list queries) :: rest => decide (atLeast ≤ findsCount queries) && findsClauses atLeast rest
  | _ :: rest => findsClauses atLeast rest

def findsAll : List Json → Bool
  | [] => true
  | q :: rest => finds q && findsAll rest

def findsNone : List Json → Bool
  | [] => true
  | q :: rest => !finds q && findsNone rest

/-- the number of queries that find the document -/
def findsCount : List Json → Nat
  | [] => 0
  | q :: rest => (if finds q then 1 else 0) + findsCount rest

end

attribute [local simp] finds findsClauses findsAll findsNone findsCount

theorem findsAll_iff (qs : List Json) : findsAll r d qs = true ↔ ∀ q ∈ qs, finds r d q = true := by
  induction qs with
  | nil => simp
  | cons q rest ih => simp [ih]

theorem findsNone_iff (qs : List Json) : findsNone r d qs = true ↔ ∀ q ∈ qs, ¬ finds r d q = true := by
  induction qs with
  | nil => simp
  | cons q rest ih => simp [ih]

theorem one_le_findsCount_iff (qs : List Json) : 1 ≤ findsCount r d qs ↔ ∃ q ∈ qs, finds r d q = true := by
  induction qs with
  | nil => simp
  | cons q rest ih =>
    rw [findsCount, List.exists_mem_cons_iff, ← ih]
    cases finds r d q <;> simp

/-! ## What tests mean -/

/-- the JSON in which a document has a value; no document has a double that is not finite, and null stands for it -/
def stored : Value → Json
  | .bool b => .bool b
  | .long n => .int n
  | .double (.finite negative mantissa exponent) => .double (.finite negative mantissa exponent)
  | .double .nan | .double (.infinite _) => .null
  | .date d => .text d.text
  | .string s => .text s

/-- A value is sent as it is stored. -/
theorem toJson_eq_stored (v : Value) : v.toJson = stored v := by
  cases v with
  | double x => cases x <;> rfl
  | _ => rfl

/-- what a test of a property says of a document; a test of an aggregate is no filter and finds nothing -/
def truth : Option Aggregation → Test → Prop
  | some _, _ => False
  | none, .compare p .equal v => ∃ x ∈ d p, r.equal x (stored v)
  | none, .compare p .notEqual v => ¬ ∃ x ∈ d p, r.equal x (stored v)
  | none, .compare p .less v => ∃ x ∈ d p, r.less x (stored v)
  | none, .compare p .lessOrEqual v => ∃ x ∈ d p, r.atMost x (stored v)
  | none, .compare p .greater v => ∃ x ∈ d p, r.less (stored v) x
  | none, .compare p .greaterOrEqual v => ∃ x ∈ d p, r.atMost (stored v) x
  | none, .range p lower upper => ∃ x ∈ d p, r.atMost (stored lower) x ∧ r.atMost x (stored upper)
  | none, .among p values => ∃ x ∈ d p, ∃ v ∈ values, r.equal x (stored v)
  | none, .like p pattern escape => ∃ x ∈ d p, ∃ s ∈ r.text x, Wildcard.likes escape pattern.toList s.toList
  | none, .isNull p => d p = none

theorem finds_term (p : String) (v : Value) :
    finds r d (one "term" (one p v.toJson)) = true ↔ ∃ x ∈ d p, r.equal x (stored v) = true := by
  simp [one, Option.any_eq_true, toJson_eq_stored]

theorem finds_range (p : String) (bounds : List (String × Json)) :
    finds r d (one "range" (one p (.object bounds))) = true ↔ ∃ x ∈ d p, bounds.all (r.within x) = true := by
  simp [one, Option.any_eq_true]

theorem finds_noneOf (q : Json) : finds r d (noneOf [q]) = true ↔ ¬ finds r d q = true := by
  simp [noneOf, one]

/-- the query for a test finds the documents of which the test is true -/
theorem finds_test (t : Test) : finds r d (test t) = true ↔ truth r d none t := by
  cases t with
  | compare p relation v =>
    cases relation with
    | equal => exact finds_term r d p v
    | notEqual => exact (finds_noneOf r d _).trans (not_congr (finds_term r d p v))
    | _ =>
      refine (finds_range r d p _).trans ?_
      simp [truth, relationName, Comparison.within, toJson_eq_stored]
  | range p lower upper =>
    refine (finds_range r d p _).trans ?_
    simp [truth, Comparison.within, toJson_eq_stored]
  | among p values => simp [test, one, truth, Option.any_eq_true, toJson_eq_stored]
  | like p pattern escape =>
    simp [test, one, truth, Option.any_eq_true, Comparison.fits, Wildcard.ofLikeText, Wildcard.fits_ofLike]
  | isNull p =>
    refine (finds_noneOf r d _).trans ?_
    simp [one, truth]

theorem finds_aggregateTest (f : Aggregation) (t : Test) : finds r d (aggregateTest f t) = false := by
  cases t <;> simp [aggregateTest, having, one]

theorem finds_and (must mustNot : List Json) : finds r d (factory.and must mustNot) = true ↔
    (∀ q ∈ must, finds r d q = true) ∧ ∀ q ∈ mustNot, ¬ finds r d q = true := by
  rw [← findsAll_iff, ← findsNone_iff]
  cases must <;> cases mustNot <;> simp [factory, one, unlessEmpty]

theorem finds_or (qs : List Json) : finds r d (factory.or qs) = true ↔ ∃ q ∈ qs, finds r d q = true := by
  rw [← one_le_findsCount_iff]
  simp only [factory, one, finds, minimum, List.lookup_cons, String.reduceBEq, BEq.rfl, findsClauses, Prod.mk.injEq,
    String.reduceEq, reduceCtorEq, and_self, imp_self, implies_true, Bool.and_true, decide_eq_true_eq]
  omega

/-- **Queries of the store are read as they are meant.** -/
theorem finds_interprets (entity : String) : Interprets factory entity (truth r d) (fun q => finds r d q = true) where
  matchAll := by simp [factory, one]
  leaf a t := by
    cases a with
    | none => exact finds_test r d t
    | some f => simp [factory, finds_aggregateTest, truth]
  and := finds_and r d
  or := finds_or r d
  not q := finds_noneOf r d q

/-- **The store finds what the tree holds of**: a tree without empty negations, with leaves as the JSON factory makes
them, is rendered, and its query finds a document exactly when the tree holds of it. An Or of nothing asks for one query
out of none, and a double that is not finite compares as null does, so neither is an exception. -/
theorem render_finds (entity : String) {p : Predicate Json} (whole : p.Whole)
    (made : Predicate.MadeBy factory entity p.leaves) :
    ∃ q, p.render factory entity = .ok q ∧ (finds r d q = true ↔ p.Holds (truth r d)) := by
  obtain ⟨q, hq⟩ := Predicate.render_whole factory entity whole
  exact ⟨q, hq, Predicate.render_holds (finds_interprets r d entity) p made hq⟩

end

/-- integers and texts compared as they are, and patterns matched with texts -/
def literally : Comparison where
  equal
    | .int m, .int n => m == n
    | .text s, .text t => s == t
    | _, _ => false
  less
    | .int m, .int n => decide (m < n)
    | _, _ => false
  atMost
    | .int m, .int n => decide (m ≤ n)
    | _, _ => false
  text
    | .text s => some s
    | _ => none

/-- a document with two fields -/
def steepHike : Document
  | "name" => some (.text "100% uphill")
  | "difficulty" => some (.int 5)
  | _ => none

example : finds literally steepHike
    (factory.and [test (.like "name" "100!%%" (some '!'))] [test (.isNull "difficulty")]) = true := by decide

/-- the leaf for a test of a property -/
def leafOf (t : Test) : Predicate Json := .leaf t none (test t)

/-- no easy hikes, and with a name of its own or without a start -/
def steepHikes : Predicate Json :=
  .root (some (.and [.not (some (leafOf (.compare "difficulty" .lessOrEqual (.long 3)))),
    .or [leafOf (.like "name" "100!%%" (some '!')), leafOf (.isNull "start")],
    .not (some (.not (some (leafOf (.compare "name" .notEqual (.string "hike"))))))]))

/-- Steep hikes are found as the tree says. -/
theorem steepHikes_found : steepHikes.Whole ∧ Predicate.MadeBy factory "Hike" steepHikes.leaves ∧
    ∃ q, steepHikes.render factory "Hike" = .ok q ∧
      (finds literally steepHike q = true ↔ steepHikes.Holds (truth literally steepHike)) := by
  have whole : steepHikes.Whole := by simp [steepHikes, leafOf, Predicate.Whole, Predicate.AllWhole]
  have made : Predicate.MadeBy factory "Hike" steepHikes.leaves := by
    simp [steepHikes, leafOf, Predicate.MadeBy, Predicate.leaves, Predicate.leavesOf, factory]
  exact ⟨whole, made, render_finds literally steepHike "Hike" whole made⟩

end EntitySearch.JsonQuery
