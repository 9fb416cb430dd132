import RecordQuery.Record.Basic
import RecordQuery.Text.Lowercase
import RecordQuery.Text.Split

/-!
# Searching records

A search looks for a lower-cased text in the lower-cased form of every text of a record: its text
fields, the items of its repeated fields, the keys and values of its maps, and all of these in the
records embedded in it. Records that are values of a map are not searched.
-/

namespace RecordQuery

/-- Whether a value is a text in whose lower-case form a text occurs. -/
def Value.finds {ι : Type} (needle : String) : Value ι → Bool
  | .string s => Text.contains (Text.lowercase s) needle
  | _ => false

namespace Registry

variable {ι : Type} [DecidableEq ι] (R : Registry ι)

mutual

/-- Whether a lower-cased text occurs in a value. -/
def searchValue (needle : String) : Value ι → Bool
  | .string s => Text.contains (Text.lowercase s) needle
  | .record t fields => searchFields needle (R.describe t).fields fields
  | .list items => searchItems needle items
  | .map pairs => pairs.any fun pair ↦ pair.1.finds needle || pair.2.finds needle
  | .null | .bool _ | .number _ => false

/-- Whether a lower-cased text occurs in an item of a list. -/
def searchItems (needle : String) : List (Value ι) → Bool
  | [] => false
  | v :: vs => searchValue needle v || searchItems needle vs

/-- Whether a lower-cased text occurs in a field that can be queried. -/
def searchFields (needle : String) : List (Field ι) → List (Value ι) → Bool
  | field :: fields, v :: vs =>
    (field.isVisible && searchValue needle v) || searchFields needle fields vs
  | _, _ => false

end

/-- Whether a lower-cased text occurs in a record. -/
def search (t : ι) (values : List (Value ι)) (needle : String) : Bool :=
  R.searchFields needle (R.describe t).fields values

end Registry

end RecordQuery
