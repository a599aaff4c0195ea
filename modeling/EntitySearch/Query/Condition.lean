/-
Conditions of a query: comparisons, ranges, lists, patterns and null tests, joined by AND, OR and NOT.

A condition is over a type of operands, so that the same tree holds the operands as they are written and the operands
after names are resolved. The aggregates and relations that appear in conditions are here too.
-/
namespace EntitySearch

/-- how two values are compared -/
inductive Relation where
  | equal
  | notEqual
  | less
  | lessOrEqual
  | greater
  | greaterOrEqual
  deriving DecidableEq, Repr

namespace Relation

def symbol : Relation → String
  | .equal => "="
  | .notEqual => "<>"
  | .less => "<"
  | .lessOrEqual => "<="
  | .greater => ">"
  | .greaterOrEqual => ">="

/-- the relation after its two sides change places -/
def mirrored : Relation → Relation
  | .less => .greater
  | .lessOrEqual => .greaterOrEqual
  | .greater => .less
  | .greaterOrEqual => .lessOrEqual
  | r => r

end Relation

/-- a condition over operands -/
inductive Condition (α : Type) where
  | and (conditions : List (Condition α))
  | or (conditions : List (Condition α))
  | not (condition : Condition α)
  | compare (relation : Relation) (left right : α)
  | between (operand lower upper : α) (negated : Bool)
  | among (operand : α) (values : List α) (negated : Bool)
  | like (operand pattern : α) (escape : Option Char) (negated : Bool)
  | isNull (operand : α) (negated : Bool)

namespace Condition

variable {α : Type}

mutual

/-- the number of levels of AND, OR and NOT, and one for the innermost tests -/
def depth : Condition α → Nat
  | .and cs => 1 + depths cs
  | .or cs => 1 + depths cs
  | .not c => 1 + depth c
  | _ => 1

def depths : List (Condition α) → Nat
  | [] => 0
  | c :: rest => max (depth c) (depths rest)

end

section

variable [DecidableEq α]

mutual

/-- whether two conditions are the same -/
def same : Condition α → Condition α → Bool
  | .and cs, .and ds => sameAll cs ds
  | .or cs, .or ds => sameAll cs ds
  | .not c, .not d => same c d
  | .compare r left right, .compare r' left' right' => r = r' && left = left' && right = right'
  | .between operand lower upper negated, .between operand' lower' upper' negated' =>
    operand = operand' && lower = lower' && upper = upper' && negated = negated'
  | .among operand values negated, .among operand' values' negated' =>
    operand = operand' && values = values' && negated = negated'
  | .like operand pattern escape negated, .like operand' pattern' escape' negated' =>
    operand = operand' && pattern = pattern' && escape = escape' && negated = negated'
  | .isNull operand negated, .isNull operand' negated' => operand = operand' && negated = negated'
  | _, _ => false

def sameAll : List (Condition α) → List (Condition α) → Bool
  | [], [] => true
  | c :: cs, d :: ds => same c d && sameAll cs ds
  | _, _ => false

end

mutual

theorem same_iff : ∀ c d : Condition α, same c d = true ↔ c = d
  | .and cs, d => by cases d <;> simp [same, sameAll_iff cs]
  | .or cs, d => by cases d <;> simp [same, sameAll_iff cs]
  | .not c, d => by cases d <;> simp [same, same_iff c]
  | .compare .., d => by cases d <;> simp [same, and_assoc]
  | .between .., d => by cases d <;> simp [same, and_assoc]
  | .among .., d => by cases d <;> simp [same, and_assoc]
  | .like .., d => by cases d <;> simp [same, and_assoc]
  | .isNull .., d => by cases d <;> simp [same]

theorem sameAll_iff : ∀ cs ds : List (Condition α), sameAll cs ds = true ↔ cs = ds
  | [], ds => by cases ds <;> simp [sameAll]
  | c :: cs, ds => by cases ds <;> simp [sameAll, same_iff c, sameAll_iff cs]

end

instance : DecidableEq (Condition α) := fun c d => decidable_of_iff _ (same_iff c d)

end

end Condition

end EntitySearch
