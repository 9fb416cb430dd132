import RecordQuery.Text.Split

/-!
# Record schemas

What a record type is: a named list of fields, each a scalar, an embedded record that is always
present or may be unset, a repeated field or a map. Record types refer to each other through an
index type `ι`, so that a type may contain itself.

A field has the label it is serialized under and, unless it is hidden, the name it is queried by. A
record type guarantees that its query names are distinct path segments.
-/

namespace RecordQuery

inductive IntegerType where
  | int32
  | int64
  | uint32
  | uint64
deriving DecidableEq

namespace IntegerType

def name : IntegerType → String
  | int32 => "i32"
  | int64 => "i64"
  | uint32 => "u32"
  | uint64 => "u64"

/-- Whether the type has negative values. -/
def isSigned : IntegerType → Bool
  | int32 | int64 => true
  | uint32 | uint64 => false

def least : IntegerType → Int
  | int32 => -0x80000000
  | int64 => -0x8000000000000000
  | uint32 | uint64 => 0

def greatest : IntegerType → Int
  | int32 => 0x7FFFFFFF
  | int64 => 0x7FFFFFFFFFFFFFFF
  | uint32 => 0xFFFFFFFF
  | uint64 => 0xFFFFFFFFFFFFFFFF

def contains (t : IntegerType) (n : Int) : Bool :=
  t.least ≤ n && n ≤ t.greatest

theorem contains_iff {t : IntegerType} {n : Int} :
    t.contains n = true ↔ t.least ≤ n ∧ n ≤ t.greatest := by
  rw [contains, Bool.and_eq_true, decide_eq_true_eq, decide_eq_true_eq]

end IntegerType

inductive FloatType where
  | single
  | double
deriving DecidableEq

def FloatType.name : FloatType → String
  | single => "f32"
  | double => "f64"

/-- The types without parts. -/
inductive Scalar where
  | bool
  | string
  | integer (t : IntegerType)
  | float (t : FloatType)
deriving DecidableEq

/-- The name of the type in messages about assignments. -/
def Scalar.name : Scalar → String
  | bool => "bool"
  | string => "string"
  | integer t => t.name
  | float t => t.name

/-- The types of map keys: truth values, texts and integers. Any ordered type of elements may key a
map, a record type too; maps with records as keys are not modelled. -/
inductive KeyType where
  | bool
  | string
  | integer (t : IntegerType)
deriving DecidableEq

def KeyType.scalar : KeyType → Scalar
  | bool => .bool
  | string => .string
  | integer t => .integer t

/-- What a repeated field or a map holds. -/
inductive ElementType (ι : Type) where
  | scalar (s : Scalar)
  | record (t : ι)
deriving DecidableEq

inductive FieldType (ι : Type) where
  | scalar (s : Scalar)
  | embedded (t : ι)
  | optional (t : ι)
  | repeated (e : ElementType ι)
  | map (key : KeyType) (e : ElementType ι)
deriving DecidableEq

/-- The type of a field that holds a single element. -/
def ElementType.fieldType {ι : Type} : ElementType ι → FieldType ι
  | scalar s => .scalar s
  | record t => .embedded t

/-- A field of a record type. A field without a query name is neither queried nor serialized. -/
structure Field (ι : Type) where
  label : String
  name? : Option String
  type : FieldType ι
deriving DecidableEq

namespace Field

/-- A field that is queried and serialized under one name. -/
def plain {ι : Type} (name : String) (type : FieldType ι) : Field ι :=
  ⟨name, some name, type⟩

def isVisible {ι : Type} (field : Field ι) : Bool :=
  field.name?.isSome

end Field

/-- Whether a character may stand in a path segment. -/
def isSegmentChar (c : Char) : Bool :=
  c.isAlphanum || c == '_'

/-- Whether a text can be a segment of a field path. -/
def isSegment (s : String) : Bool :=
  !s.toList.isEmpty && s.toList.all isSegmentChar

/-- A named record type with its fields in declaration order. -/
structure RecordType (ι : Type) where
  name : String
  fields : List (Field ι)
  names_nodup : (fields.filterMap Field.name?).Nodup := by decide
  names_segments : ∀ n ∈ fields.filterMap Field.name?, isSegment n = true := by decide
  labels_nodup : ((fields.filter Field.isVisible).map Field.label).Nodup := by decide

namespace RecordType

variable {ι : Type}

/-- The fields that can be queried, in declaration order. -/
def visible (t : RecordType ι) : List (Field ι) :=
  t.fields.filter Field.isVisible

/-- The field queried by `name`. -/
def field? (t : RecordType ι) (name : String) : Option (Field ι) :=
  t.fields.find? fun field ↦ field.name? == some name

end RecordType

/-- What a field holds one or several of. -/
inductive Kind (ι : Type) where
  | bool
  | int
  | uint
  | float
  | string
  | record (t : ι)
deriving DecidableEq

/-- How many values a field holds. A map carries the kind of its keys. -/
inductive Cardinality (ι : Type) where
  | singular
  | repeated
  | map (key : Kind ι)
deriving DecidableEq

section Kinds

variable {ι : Type}

def Scalar.kind : Scalar → Kind ι
  | bool => .bool
  | string => .string
  | integer t => if t.isSigned then .int else .uint
  | float _ => .float

def ElementType.kind : ElementType ι → Kind ι
  | scalar s => s.kind
  | record t => .record t

def FieldType.kind : FieldType ι → Kind ι
  | scalar s => s.kind
  | embedded t | optional t => .record t
  | repeated e | map _ e => e.kind

def FieldType.cardinality : FieldType ι → Cardinality ι
  | scalar _ | embedded _ | optional _ => .singular
  | repeated _ => .repeated
  | map key _ => .map key.scalar.kind

def Kind.name : Kind ι → String
  | bool => "bool"
  | int => "int"
  | uint => "uint"
  | float => "float"
  | string => "string"
  | record _ => "record"

end Kinds

end RecordQuery
