import RecordQuery.Value

/-!
# Registries of record types

A registry describes a family of record types that may refer to each other, and gives every type its
default record. Whether a value has a given field type is decided by `conforms`; the default records
of a registry conform to their types.
-/

namespace RecordQuery

/-- Whether a value has a scalar type. Integers carry the representation of their signedness, and a
single precision number is a double that single precision can represent. -/
def Scalar.admits {ι : Type} : Scalar → Value ι → Bool
  | bool, .bool _ => true
  | string, .string _ => true
  | integer t, .number (.signed n) => t.isSigned && t.contains n.toInt
  | integer t, .number (.unsigned n) => !t.isSigned && t.contains n.toNat
  | float .double, .number (.float _) => true
  | float .single, .number (.float x) => (x.convert .binary32).convert .binary64 == x
  | _, _ => false

/-- Whether two map keys are the same key. -/
def Value.sameKey {ι : Type} : Value ι → Value ι → Bool
  | .bool a, .bool b => a == b
  | .string a, .string b => a == b
  | .number a, .number b => a == b
  | _, _ => false

/-- The value of a scalar type that stands for absence. -/
def Scalar.zero {ι : Type} (s : Scalar) : Value ι :=
  (s.kind : Kind ι).zero

/-- The value of a field type that stands for absence, where `default` gives the default records. -/
def FieldType.zero {ι : Type} (default : ι → List (Value ι)) : FieldType ι → Value ι
  | scalar s => s.zero
  | embedded t => .record t (default t)
  | optional _ => .null
  | repeated _ => .list []
  | map .. => .map []

/-- The records of zero values, provided that always-present records are nested less than `depth`
deep. -/
def zeroRecords {ι : Type} (describe : ι → RecordType ι) : Nat → ι → List (Value ι)
  | 0, _ => []
  | depth + 1, t => (describe t).fields.map fun field ↦ field.type.zero (zeroRecords describe depth)

/-- Whether a map key comes before another one of the same form: false before true, numbers by value
and texts by code point. -/
def Value.keyBefore {ι : Type} : Value ι → Value ι → Bool
  | .bool a, .bool b => !a && b
  | .string a, .string b => Text.compare a b == .lt
  | .number a, .number b => a.compare? b == some .lt
  | _, _ => false

/-- A map with one more pair. The pairs stay in the order of their keys, and a pair with the same
key is replaced. -/
def Value.insertPair {ι : Type} (k v : Value ι) :
    List (Value ι × Value ι) → List (Value ι × Value ι)
  | [] => [(k, v)]
  | (key, value) :: pairs =>
    if k.sameKey key then (k, v) :: pairs
    else if k.keyBefore key then (k, v) :: (key, value) :: pairs
    else (key, value) :: insertPair k v pairs

/-- The map with the given pairs, of which later ones replace earlier ones with the same key. -/
def Value.mapOf {ι : Type} (pairs : List (Value ι × Value ι)) : Value ι :=
  .map (pairs.foldl (fun sorted pair ↦ insertPair pair.1 pair.2 sorted) [])

section Conformance

variable {ι : Type} [DecidableEq ι]

mutual

/-- Whether a value has a field type, where `describe` gives the fields of each record type. The
keys of a map are distinct. -/
def conforms (describe : ι → RecordType ι) : FieldType ι → Value ι → Bool
  | .scalar s, v => s.admits v
  | .embedded t, .record u fields => u == t && fieldsConform describe (describe u).fields fields
  | .optional _, .null => true
  | .optional t, .record u fields => u == t && fieldsConform describe (describe u).fields fields
  | .repeated e, .list items => itemsConform describe e.fieldType items
  | .map key e, .map pairs => pairsConform describe key e.fieldType pairs
  | _, _ => false

/-- Whether values match a list of fields one by one. -/
def fieldsConform (describe : ι → RecordType ι) : List (Field ι) → List (Value ι) → Bool
  | [], [] => true
  | field :: fields, v :: vs => conforms describe field.type v && fieldsConform describe fields vs
  | _, _ => false

/-- Whether all values have one type. -/
def itemsConform (describe : ι → RecordType ι) (type : FieldType ι) : List (Value ι) → Bool
  | [] => true
  | v :: vs => conforms describe type v && itemsConform describe type vs

/-- Whether pairs have distinct keys of one type and values of another. -/
def pairsConform (describe : ι → RecordType ι) (key : KeyType) (type : FieldType ι) :
    List (Value ι × Value ι) → Bool
  | [] => true
  | (k, v) :: pairs =>
    key.scalar.admits k && conforms describe type v && !pairs.any (fun pair ↦ k.sameKey pair.1) &&
      pairsConform describe key type pairs

end

/-- A family of record types with their default records. -/
structure Registry (ι : Type) [DecidableEq ι] where
  describe : ι → RecordType ι
  default : ι → List (Value ι)
  default_conforms : ∀ t, fieldsConform describe (describe t).fields (default t) = true

end Conformance

namespace Registry

variable {ι : Type} [DecidableEq ι] (R : Registry ι)

def nameOf (t : ι) : String :=
  (R.describe t).name

/-- Every field of every default record has the value that stands for absence. -/
def DefaultsAreZero : Prop :=
  ∀ t, R.default t = (R.describe t).fields.map fun field ↦ field.type.zero R.default

/-- Whether two kinds are the same; record kinds are compared by schema name. -/
def sameKind : Kind ι → Kind ι → Bool
  | .record t, .record u => R.nameOf t == R.nameOf u
  | a, b => a == b

/-- The text of a kind, which shows the name of a record type. -/
def kindText : Kind ι → String
  | .record t => "Record(" ++ R.nameOf t ++ ")"
  | k => k.name

def cardinalityText : Cardinality ι → String
  | .singular => "Singular"
  | .repeated => "Repeated"
  | .map key => "Map(" ++ R.kindText key ++ ")"

end Registry

end RecordQuery
