import RecordQuery.Error
import RecordQuery.Record.Equality
import RecordQuery.Text.Split

/-!
# Comparing values

What the operators of a filter mean on values. Numbers are ordered by value and texts by code point;
no other pair has an order. Containment looks for a text in a text and for a key or a value in a
map, and is equality otherwise. As soon as a list takes part, the comparison asks for some leaf on
each side between which it holds; a pair of leaves without an order does not count.
-/

namespace RecordQuery

section Leaves

variable {ι : Type}

mutual

/-- The values in a list, in lists inside it and so on; a value that is no list is its own leaf. -/
def Value.leaves : Value ι → List (Value ι)
  | .list items => itemLeaves items
  | .null => [.null]
  | .bool b => [.bool b]
  | .number n => [.number n]
  | .string s => [.string s]
  | .map pairs => [.map pairs]
  | .record t fields => [.record t fields]

def itemLeaves : List (Value ι) → List (Value ι)
  | [] => []
  | v :: vs => v.leaves ++ itemLeaves vs

end

def Value.isList : Value ι → Bool
  | .list _ => true
  | _ => false

/-- Whether the value is a text in which the other one, also a text, occurs. -/
def Value.containsText : Value ι → Value ι → Bool
  | .string s, .string needle => Text.contains s needle
  | _, _ => false

end Leaves

namespace Registry

variable {ι : Type} [DecidableEq ι] (R : Registry ι)

/-- Whether the first value contains the second. -/
def has : Value ι → Value ι → Bool
  | .string s, .string needle => Text.contains s needle
  | .map pairs, v =>
    pairs.any fun pair ↦
      R.equal pair.1 v || R.equal pair.2 v || pair.1.containsText v || pair.2.containsText v
  | u, v => R.equal u v

/-- Compares two values neither of which is a list. -/
def compareLeaves (op : Operator) (u v : Value ι) : Except Error Bool :=
  match op with
  | .eq => .ok (R.equal u v)
  | .ne => .ok (!R.equal u v)
  | .has => .ok (R.has u v)
  | .gt | .gte | .lt | .lte =>
    match u, v with
    | .number a, .number b => .ok ((a.compare? b).any op.holds)
    | .string a, .string b => .ok (op.holds (Text.compare a b))
    | _, _ => .error (.unsupportedComparison op u.shape v.shape)

/-- Whether a comparison is defined and holds. -/
def isTrue (outcome : Except Error Bool) : Bool :=
  match outcome with
  | .ok b => b
  | .error _ => false

def compare (op : Operator) (u v : Value ι) : Except Error Bool :=
  if u.isList || v.isList then
    .ok (u.leaves.any fun a ↦ v.leaves.any fun b ↦ isTrue (R.compareLeaves op a b))
  else R.compareLeaves op u v

end Registry

end RecordQuery
