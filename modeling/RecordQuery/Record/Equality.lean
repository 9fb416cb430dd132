import RecordQuery.Record.Basic

/-!
# Equality of values

Numbers are equal when their values are, whatever their representation; a value that is not a number
differs from itself. Maps are compared as unordered sets of pairs, and records field by field, as
far as they can be queried. Values of different shapes are never equal.
-/

namespace RecordQuery

namespace Registry

variable {ι : Type} [DecidableEq ι] (R : Registry ι)

mutual

def equal : Value ι → Value ι → Bool
  | .null, .null => true
  | .bool a, .bool b => a == b
  | .number a, .number b => a.same b
  | .string a, .string b => a == b
  | .list as, .list bs => itemsEqual as bs
  | .map as, .map bs => as.length == bs.length && pairsWithin as bs
  | .record t as, .record u bs =>
    R.nameOf t == R.nameOf u && fieldsEqual (R.describe t).fields as (R.describe u).fields bs
  | _, _ => false

def itemsEqual : List (Value ι) → List (Value ι) → Bool
  | [], [] => true
  | a :: as, b :: bs => equal a b && itemsEqual as bs
  | _, _ => false

/-- Whether every pair of the first list has an equal one in the second. -/
def pairsWithin : List (Value ι × Value ι) → List (Value ι × Value ι) → Bool
  | [], _ => true
  | (k, v) :: as, bs => bs.any (fun pair ↦ equal k pair.1 && equal v pair.2) && pairsWithin as bs

/-- Whether every field of the first record that can be queried has the same value in the second. -/
def fieldsEqual : List (Field ι) → List (Value ι) → List (Field ι) → List (Value ι) → Bool
  | field :: fields, a :: as, others, bs =>
    (match field.name? with
      | none => true
      | some name =>
        match fieldOf? name others bs with
        | some (_, b) => equal a b
        | none => false) && fieldsEqual fields as others bs
  | _, _, _, _ => true

end

end Registry

end RecordQuery
