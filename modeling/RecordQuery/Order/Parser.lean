import RecordQuery.Order.Basic
import RecordQuery.Text.Blank

/-!
# From text to orders

An order is written as a comma-separated list of items, each a path and an optional direction. A
blank text is the empty order.
-/

namespace RecordQuery

/-- The direction written as `word`, in any letter case. -/
def Direction.ofWord? (word : String) : Option Direction :=
  let word := word.toList.map Char.toLower
  if word == ['a', 's', 'c'] then some .asc
  else if word == ['d', 'e', 's', 'c'] then some .desc
  else none

/-- The sort key with the path written as `path`. -/
def OrderKey.ofPath (path : String) (direction : Direction) : Except OrderFault OrderKey :=
  match FieldPath.parse path with
  | .ok path => .ok ⟨path, direction⟩
  | .error fault => .error (.invalidPath path fault)

/-- The sort key written as an item of an order. -/
def OrderKey.parse (item : String) : Except OrderFault OrderKey :=
  match Text.words item with
  | [] => .error .emptyItem
  | [path] => ofPath path .asc
  | [path, word] =>
    match Direction.ofWord? word with
    | some direction => ofPath path direction
    | none => .error (.unknownDirection word path)
  | _ => .error (.malformedItem (Text.trim item))

def Order.parse (s : String) : Except Error Order :=
  if s.toList.all Text.isBlank then .ok .empty
  else
    match (Text.splitOn ',' s).mapM OrderKey.parse with
    | .ok keys => Order.ofKeys keys
    | .error fault => .error (.invalidOrderBy fault)

end RecordQuery
