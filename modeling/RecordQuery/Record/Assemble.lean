import RecordQuery.Record.Basic

/-!
# Assembling records

A record is assembled from values under the labels of its fields, as they come from a document or a
packed text: no label may occur twice, and what is missing is taken from the default record.
-/

namespace RecordQuery.Registry

variable {ι : Type} [DecidableEq ι] (R : Registry ι)

/-- The record with the given values under labels, of which none may occur twice; the other fields
have the values of the default record. -/
def assemble? (t : ι) (entries : List (String × Value ι)) : Option (Value ι) :=
  if (entries.map Prod.fst).Nodup then
    some (.record t (((R.describe t).fields.zip (R.default t)).map fun (field, v) ↦
      if field.isVisible then (entries.lookup field.label).getD v else v))
  else none

end RecordQuery.Registry
