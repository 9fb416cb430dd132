import RecordQuery.Order.Basic
import RecordQuery.Resolve

/-!
# Comparing records

An order is compiled for a record type by checking that each of its paths can be a sort key. The
keys decide in turn: the first one under which two records differ gives their order. Numbers are
sorted by value with what is not a number last, texts by code point, and false before true.
-/

namespace RecordQuery

/-- The order of two truth values: false comes first. -/
def compareBools (a b : Bool) : Ordering :=
  if a == b then .eq else if b then .lt else .gt

/-- The order of two values of a sort key. Null comes first; two values of different shapes have no
order and count as equal. -/
def Value.sortCompare {ι : Type} : Value ι → Value ι → Ordering
  | .number a, .number b => a.totalCompare b
  | .string a, .string b => Text.compare a b
  | .bool a, .bool b => compareBools a b
  | .null, .null => .eq
  | .null, _ => .lt
  | _, .null => .gt
  | _, _ => .eq

/-- A sort key that has been checked. -/
structure SortKey (ι : Type) where
  key : OrderKey
  kind : Kind ι
deriving DecidableEq

variable {ι : Type} [DecidableEq ι]

namespace SortKey

/-- Checks a sort key against a record type. -/
def compile (R : Registry ι) (t : ι) (key : OrderKey) : Except Error (SortKey ι) :=
  (R.sortKind t key.path).map (⟨key, ·⟩)

def compare (R : Registry ι) (t : ι) (k : SortKey ι) (a b : List (Value ι)) : Ordering :=
  k.key.direction.apply
    ((R.sortValue t a k.key.path k.kind).sortCompare (R.sortValue t b k.key.path k.kind))

end SortKey

/-- An order that has been checked against a record type. -/
structure Comparator (R : Registry ι) (t : ι) where
  order : Order
  keys : List (SortKey ι)
  compiled : order.keys.mapM (SortKey.compile R t) = .ok keys

def Order.compile (R : Registry ι) (t : ι) (order : Order) : Except Error (Comparator R t) :=
  match h : order.keys.mapM (SortKey.compile R t) with
  | .ok keys => .ok ⟨order, keys, h⟩
  | .error e => .error e

namespace Comparator

variable {R : Registry ι} {t : ι}

/-- The first of several outcomes that is not equality. -/
def firstDifference : List Ordering → Ordering
  | [] => .eq
  | .eq :: rest => firstDifference rest
  | o :: _ => o

def compare (c : Comparator R t) (a b : Record R t) : Ordering :=
  firstDifference (c.keys.map fun k ↦ k.compare R t a.fields b.fields)

/-- Whether the first record comes strictly before the second. -/
def less (c : Comparator R t) (a b : Record R t) : Bool :=
  c.compare a b == .lt

/-- The records in order; records that compare equal keep their order. -/
def sort (c : Comparator R t) (records : List (Record R t)) : List (Record R t) :=
  records.mergeSort fun a b ↦ c.compare a b != .gt

def debugText (c : Comparator R t) : String :=
  let key (k : SortKey ι) : String :=
    "(" ++ Text.quoted k.key.path.text ++ ", " ++ k.key.direction.name ++ ")"
  "[" ++ ", ".intercalate (c.keys.map key) ++ "]"

end Comparator

end RecordQuery
