import RecordQuery.Error
import RecordQuery.Record.Basic

/-!
# Resolving paths

A path is resolved against a record along its type, so that the whole path is checked even where the
record has no data. A map or a repeated field at the end of the path gives its whole value. A path
that goes on below a repeated field of records is resolved in every element, and the results form a
list. Below a record that is not set, scalars read as zero, repeated fields and maps as empty and
records as null.

Sort keys are paths that pass only through embedded records and end at a scalar.
-/

namespace RecordQuery

namespace Registry

variable {ι : Type} [DecidableEq ι] (R : Registry ι)

/-- Resolves names below a record of type `t`, which may be absent; `path` is the whole path, for
messages. -/
def resolveBelow (path : String) :
    ι → Option (List (Value ι)) → List String → Except Error (Value ι)
  | _, _, [] => .error (.invalidFieldPath "" .emptyPath)
  | t, values?, name :: names =>
    match (R.describe t).field? name with
    | none => .error (.invalidFieldPath path (.unknownField name (R.nameOf t)))
    | some field =>
      let value? := values?.bind fun values ↦
        (fieldOf? name (R.describe t).fields values).map Prod.snd
      match field.type with
      | .map .. =>
        if names.isEmpty then .ok (value?.getD (.map []))
        else .error (.invalidFieldPath path (.belowMap name))
      | .repeated (.scalar _) =>
        if names.isEmpty then .ok (value?.getD (.list []))
        else .error (.invalidFieldPath path (.belowRepeatedScalar name))
      | .repeated (.record u) =>
        if names.isEmpty then .ok (value?.getD (.list []))
        else
          (resolveBelow path u none names).map fun _ ↦
            let items :=
              match value? with
              | some (.list items) => items
              | _ => []
            .list (items.map fun item ↦
              match item with
              | .record _ values => ((resolveBelow path u (some values) names).toOption).getD .null
              | _ => .null)
      | .embedded u | .optional u =>
        if names.isEmpty then .ok (value?.getD .null)
        else
          match value? with
          | some (.record _ values) => resolveBelow path u (some values) names
          | _ => resolveBelow path u none names
      | .scalar s =>
        if names.isEmpty then .ok (value?.getD s.zero)
        else .error (.invalidFieldPath path (.belowScalar name))

/-- The value of a word that names no field. -/
def literalOf (word : String) : Value ι :=
  if word == "true" then .bool true
  else if word == "false" then .bool false
  else .string word

/-- Resolves one side of a comparison against a record. A single word that names no field stands for
itself. -/
def memberValue (t : ι) (values : List (Value ι)) : List String → Except Error (Value ι)
  | [] => .error (.invalidFieldPath "" .emptyPath)
  | name :: names =>
    let path := ".".intercalate (name :: names)
    if ((R.describe t).field? name).isSome then R.resolveBelow path t (some values) (name :: names)
    else if names.isEmpty then .ok (literalOf name)
    else .error (.invalidFieldPath path (.unknownHead name))

/-- The kind of the scalar that a sort key ends at. -/
def sortKindBelow (path : String) : ι → List String → Except Error (Kind ι)
  | _, [] => .error (.invalidFieldPath path .emptyPath)
  | t, name :: names =>
    match (R.describe t).field? name with
    | none => .error (.invalidFieldPath path (.unknownField name (R.nameOf t)))
    | some field =>
      match field.type with
      | .repeated _ => .error (.invalidFieldPath path (.repeatedSortKey name))
      | .map .. => .error (.invalidFieldPath path (.mapSortKey name))
      | .embedded u | .optional u =>
        if names.isEmpty then .error .recordSortKey else sortKindBelow path u names
      | .scalar s =>
        if names.isEmpty then .ok s.kind
        else .error (.invalidFieldPath path (.belowScalar name))

/-- Checks that a path can be a sort key of a record type, and gives the kind of its values. -/
def sortKind (t : ι) (path : FieldPath) : Except Error (Kind ι) :=
  R.sortKindBelow path.text t path.segments

/-- The value of a record under a sort key of the given kind. -/
def sortValue (t : ι) (values : List (Value ι)) (path : FieldPath) (kind : Kind ι) : Value ι :=
  match R.resolveBelow path.text t (some values) path.segments with
  | .ok .null | .error _ => kind.zero
  | .ok v => v

end Registry

end RecordQuery
