/-
The property that types a parameter with several uses.

A use of a parameter is a place in WHERE where it is compared with a property. `uses` lists the properties of the uses
in the order of the text. The command line goes through the members of every AND and OR from the last to the first and
keeps what it finds first, so a parameter is typed by its last use, however AND, OR and NOT are nested
(`lookup_last_use`).
-/
import EntitySearch.Proofs.CommandLine.Targets

namespace EntitySearch.CommandLine

/-! ## Uses -/

/-- where a reference leads; an operand of another kind leads nowhere -/
def leadsTo? (roots : List String) (joins : NamedPaths) : Operand → Option (List String)
  | .path e => belowTarget roots joins e.segments
  | _ => none

/-- the property in a pair of operands whose second is the parameter -/
def useOf (roots : List String) (joins : NamedPaths) (name : String) (pair : Operand × Operand) :
    Option (List String) :=
  if pair.2 = .named name then leadsTo? roots joins pair.1 else none

/-- the properties that a parameter is compared with in a query, in the order of the text -/
def uses (q : Statement) (name : String) : List (List String) :=
  match q.filter with
  | none => []
  | some w => w.compared.filterMap (useOf (roots q) (joinPaths (roots q) q.joins) name)

section

variable {roots : List String} {joins : NamedPaths} {name : String}

/-! ## One test -/

theorem lookup_names (names : List String) (path : List String) :
    (names.map fun n => (n, path)).lookup name = if name ∈ names then some path else none := by
  induction names with
  | nil => rfl
  | cons n rest ih =>
    rw [List.map_cons, lookup_cons_ite, ih]
    by_cases same : name = n <;> simp [same]

/-- what is found for a parameter in one test -/
theorem lookup_comparedWith (a : Operand) (others : List Operand) :
    (comparedWith roots joins (a, others)).lookup name =
      if .named name ∈ others then leadsTo? roots joins a else none := by
  cases a with
  | path e =>
    simp only [comparedWith, leadsTo?]
    cases belowTarget roots joins e.segments with
    | none => simp
    | some path => simp only [lookup_names, mem_parameterNames]
  | _ => simp [comparedWith, leadsTo?]

/-- the uses in one test are all of one property, so the last is like the first -/
theorem getLast?_uses (a : Operand) (others : List Operand) :
    ((others.map fun o => (a, o)).filterMap (useOf roots joins name)).getLast? =
      if .named name ∈ others then leadsTo? roots joins a else none := by
  induction others using List.reverseRecOn with
  | nil => rfl
  | append_singleton others o ih =>
    rw [List.map_append, List.filterMap_append, List.getLast?_append, ih]
    by_cases used : o = .named name
    · cases hp : leadsTo? roots joins a <;> simp [useOf, used, hp]
    · have unlike : ¬Operand.named name = o := fun h => used h.symm
      simp [useOf, used, unlike]

theorem lookup_test (a : Operand) (others : List Operand) :
    (comparedWith roots joins (a, others)).lookup name =
      ((others.map fun o => (a, o)).filterMap (useOf roots joins name)).getLast? := by
  rw [lookup_comparedWith, getLast?_uses]

/-- a comparison is found from one of its sides only: the other is the parameter -/
theorem lookup_comparison (left right : Operand) :
    (comparedWith roots joins (left, [right]) ++ comparedWith roots joins (right, [left])).lookup name =
      ([(left, right), (right, left)].filterMap (useOf roots joins name)).getLast? := by
  have silent : leadsTo? roots joins (.named name) = none := rfl
  rw [List.lookup_append, lookup_comparedWith, lookup_comparedWith]
  simp only [List.mem_singleton, eq_comm (a := Operand.named name)]
  by_cases hr : right = .named name
  · subst hr
    cases found : leadsTo? roots joins left <;> simp [useOf, found, silent]
  · by_cases hl : left = .named name
    · subst hl
      cases found : leadsTo? roots joins right <;> simp [useOf, hr, found]
    · simp [useOf, hr, hl]

/-! ## Conditions -/

mutual

/-- **What is found first is what is written last**, at every nesting. -/
theorem lookup_comparisons : ∀ w : Condition Operand,
    ((comparisons w).flatMap (comparedWith roots joins)).lookup name =
      (w.compared.filterMap (useOf roots joins name)).getLast?
  | .and ws => lookup_comparisonsFromLast ws
  | .or ws => lookup_comparisonsFromLast ws
  | .not w => lookup_comparisons w
  | .compare _ left right => by
    simp only [comparisons, Condition.compared, List.flatMap_cons, List.flatMap_nil, List.append_nil]
    exact lookup_comparison left right
  | .between operand lower upper _ => by
    simp only [comparisons, Condition.compared, List.flatMap_cons, List.flatMap_nil, List.append_nil]
    exact lookup_test operand [lower, upper]
  | .among operand values _ => by
    simp only [comparisons, Condition.compared, List.flatMap_cons, List.flatMap_nil, List.append_nil]
    exact lookup_test operand values
  | .like .. => rfl
  | .isNull .. => rfl

theorem lookup_comparisonsFromLast : ∀ ws : List (Condition Operand),
    ((comparisonsFromLast ws).flatMap (comparedWith roots joins)).lookup name =
      ((Condition.comparedIn ws).filterMap (useOf roots joins name)).getLast?
  | [] => rfl
  | w :: rest => by
    calc ((comparisonsFromLast (w :: rest)).flatMap (comparedWith roots joins)).lookup name
        = (((comparisonsFromLast rest).flatMap (comparedWith roots joins)).lookup name).or
            (((comparisons w).flatMap (comparedWith roots joins)).lookup name) := by
          rw [comparisonsFromLast, List.flatMap_append, List.lookup_append]
      _ = (((Condition.comparedIn rest).filterMap (useOf roots joins name)).getLast?).or
            ((w.compared.filterMap (useOf roots joins name)).getLast?) := by
          rw [lookup_comparisonsFromLast rest, lookup_comparisons w]
      _ = ((Condition.comparedIn (w :: rest)).filterMap (useOf roots joins name)).getLast? := by
          rw [Condition.comparedIn, List.filterMap_append, List.getLast?_append]

end

end

/-! ## Queries -/

/-- **A parameter is typed by its last use**, in the order of the text: its entry names the property of the last place
in WHERE where it is compared with one, and there is no entry for it if there is no such place. -/
theorem lookup_last_use (q : Statement) (name : String) :
    (parameterPaths q).lookup name = (uses q name).getLast? ∧
      ∀ path, (name, path) ∈ parameterPaths q ↔ (uses q name).getLast? = some path := by
  have last : (comparedPaths q).lookup name = (uses q name).getLast? := by
    unfold comparedPaths uses
    cases q.filter with
    | none => rfl
    | some w => exact lookup_comparisons w
  rw [parameterPaths_eq, lookup_firstOnly]
  refine ⟨last, fun path => ?_⟩
  rw [mem_firstOnly, last]

/-- hikes of a difficulty or of a description -/
def hardOrDescribed : Statement where
  select := none
  sources := [⟨"Hike", some "h"⟩]
  joins := []
  filter := some (.or [.compare .equal (.path ⟨["h", "difficulty"], none⟩) (.named "wanted"),
    .compare .equal (.path ⟨["h", "description"], none⟩) (.named "wanted")])
  groupBy := none
  having := none
  orderBy := none

/-- A parameter that is compared with a number first and with a text then is typed as a text. -/
theorem hardOrDescribed_typedByLast :
    uses hardOrDescribed "wanted" = [["difficulty"], ["description"]] ∧
      (parameterPaths hardOrDescribed).lookup "wanted" = some ["description"] ∧
      (parameterPaths hardOrDescribed).lookup "wanted" ≠ (uses hardOrDescribed "wanted").head? ∧
      typedValue hikes (targetEntity hikes hardOrDescribed) (parameterPaths hardOrDescribed) "wanted" "7" =
        .ok (.string "7") := by
  decide +kernel

end EntitySearch.CommandLine
