/-!
# Comparison operators

The comparators of a filter restriction: equality, the four orderings, and the containment test
written with a colon.
-/

namespace RecordQuery

/-- A comparator of a filter restriction. -/
inductive Operator where
  | eq
  | ne
  | gt
  | gte
  | lt
  | lte
  | has
deriving DecidableEq

namespace Operator

/-- The operator as written in a filter. -/
def text : Operator → String
  | eq => "="
  | ne => "!="
  | gt => ">"
  | gte => ">="
  | lt => "<"
  | lte => "<="
  | has => ":"

/-- The operator written as `s`. -/
def ofText? (s : String) : Option Operator :=
  [eq, ne, gt, gte, lt, lte, has].find? fun op ↦ op.text == s

def name : Operator → String
  | eq => "Eq"
  | ne => "Ne"
  | gt => "Gt"
  | gte => "Gte"
  | lt => "Lt"
  | lte => "Lte"
  | has => "Has"

/-- Whether the operator asks for an order of its two sides. -/
def isOrdering : Operator → Bool
  | gt | gte | lt | lte => true
  | eq | ne | has => false

/-- Whether the operator holds of two sides in the given order. Containment is not a matter of order
and never holds. -/
def holds : Operator → Ordering → Bool
  | eq, o => o == .eq
  | ne, o => o != .eq
  | gt, o => o == .gt
  | gte, o => o != .lt
  | lt, o => o == .lt
  | lte, o => o != .gt
  | has, _ => false

theorem ofText?_text (op : Operator) : ofText? op.text = some op := by
  cases op <;> decide

end Operator

end RecordQuery
