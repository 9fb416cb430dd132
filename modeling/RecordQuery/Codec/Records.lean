import RecordQuery.Codec.MessagePack
import RecordQuery.Record.Assemble
import RecordQuery.Text.Utf8

/-!
# Records as MessagePack

A record is written as a map from the labels of its fields to their values; hidden fields are left
out. It is read from such a map, whose keys may also be the positions of the fields and of which
unknown keys are ignored, or from an array of the values in order. Missing fields have the values of
the default record. Integers are read in every form, floats also from integers, and null only where
a record may be unset. Binary data may stand for a text, for a list of numbers and for the values of
a record that are numbers.
-/

namespace RecordQuery.Codec

variable {ι : Type} [DecidableEq ι] (R : Registry ι)

mutual

def pack : FieldType ι → Value ι → Packed
  | .scalar (.float .single), .number n => .single (n.toDouble.convert .binary32).toBits
  | _, .number (.float x) => .double x.toBits
  | _, .number (.signed n) => .ofInt n.toInt
  | _, .number (.unsigned n) => .ofInt n.toNat
  | _, .bool b => .bool b
  | _, .string s => .text (Text.utf8 s)
  | .repeated e, .list items => .array (packItems e.fieldType items)
  | .map _ e, .map pairs => .map (packPairs e.fieldType pairs)
  | _, .record t fields => .map (packFields (R.describe t).fields fields)
  | _, _ => .nil

def packItems (type : FieldType ι) : List (Value ι) → List Packed
  | [] => []
  | v :: vs => pack type v :: packItems type vs

def packPairs (type : FieldType ι) : List (Value ι × Value ι) → List (Packed × Packed)
  | [] => []
  | (key, v) :: pairs => (pack (.scalar .string) key, pack type v) :: packPairs type pairs

/-- The packed labels and values of the fields that can be queried. -/
def packFields : List (Field ι) → List (Value ι) → List (Packed × Packed)
  | field :: fields, v :: vs =>
    let rest := packFields fields vs
    if field.isVisible then (.text (Text.utf8 field.label), pack field.type v) :: rest else rest
  | _, _ => []

end

/-- The float of a type nearest to a number of any format. -/
def floatValue {l : Layout} (type : FloatType) (x : Floating l) : Value ι :=
  match type with
  | .single => .number (.float ((x.convert .binary32).convert .binary64))
  | .double => .number (.float (x.convert .binary64))

/-- The float of a type nearest to an integer. -/
def floatOfInt (type : FloatType) (n : Int) : Value ι :=
  match type with
  | .single => .number (.float ((Floating.ofInt .binary32 n).convert .binary64))
  | .double => .number (.float (.ofInt .binary64 n))

def unpackScalar? : Scalar → Packed → Option (Value ι)
  | .bool, .bool b => some (.bool b)
  | .string, .text bytes | .string, .binary bytes => (Text.ofUtf8? bytes).map .string
  | .integer t, .unsigned n => if t.contains n then some (.ofInteger t n) else none
  | .integer t, .signed n => if t.contains n then some (.ofInteger t n) else none
  | .float t, .unsigned n => some (floatOfInt t n)
  | .float t, .signed n => some (floatOfInt t n)
  | .float t, .single bits => some (floatValue t (.ofBits .binary32 bits))
  | .float .single, .double bits => some (floatValue .single (.ofBits .binary64 bits))
  | .float .double, .double bits => some (.number (.float (.ofBits .binary64 bits)))
  | _, _ => none

/-- Reads a byte of binary data as a value of a field type. -/
def unpackByte? : FieldType ι → UInt8 → Option (Value ι)
  | .scalar s, byte => unpackScalar? s (.unsigned byte.toNat)
  | _, _ => none

/-- Reads bytes of binary data as the values of the first fields of a record. Bytes beyond the last
field have no meaning. -/
def unpackBytes? (fields : List (Field ι)) (bytes : List UInt8) :
    Option (List (String × Value ι)) :=
  (fields.zip bytes).mapM fun (field, byte) ↦ (unpackByte? field.type byte).map (field.label, ·)

/-- The field that a key of a record names, if any; other values cannot be keys. -/
def keyField? (fields : List (Field ι)) : Packed → Option (Option (Field ι))
  | .text bytes | .binary bytes => some (fields.find? fun field ↦ Text.utf8 field.label = bytes)
  | .unsigned n => some fields[n]?
  | _ => none

mutual

def unpack? : FieldType ι → Packed → Option (Value ι)
  | .scalar s, p => unpackScalar? s p
  | .optional _, .nil => some .null
  | .embedded t, .map pairs | .optional t, .map pairs =>
    (unpackEntries? (R.describe t).visible pairs).bind (R.assemble? t)
  | .embedded t, .array items | .optional t, .array items =>
    (unpackFields? (R.describe t).visible items).bind (R.assemble? t)
  | .embedded t, .binary bytes | .optional t, .binary bytes =>
    (unpackBytes? (R.describe t).visible bytes).bind (R.assemble? t)
  | .repeated e, .array items => (unpackItems? e.fieldType items).map .list
  | .repeated e, .binary bytes => (bytes.mapM (unpackByte? e.fieldType)).map .list
  | .map key e, .map pairs => (unpackPairs? key.scalar e.fieldType pairs).map .mapOf
  | _, _ => none

def unpackItems? (type : FieldType ι) : List Packed → Option (List (Value ι))
  | [] => some []
  | p :: ps =>
    match unpack? type p with
    | some v => (unpackItems? type ps).map (v :: ·)
    | none => none

def unpackPairs? (key : Scalar) (type : FieldType ι) :
    List (Packed × Packed) → Option (List (Value ι × Value ι))
  | [] => some []
  | (k, p) :: pairs =>
    match unpackScalar? key k, unpack? type p with
    | some k, some v => (unpackPairs? key type pairs).map ((k, v) :: ·)
    | _, _ => none

/-- Reads the values of the fields of a record that are named by keys. -/
def unpackEntries? (fields : List (Field ι)) :
    List (Packed × Packed) → Option (List (String × Value ι))
  | [] => some []
  | (key, p) :: pairs =>
    match keyField? fields key with
    | none => none
    | some none => unpackEntries? fields pairs
    | some (some field) =>
      match unpack? field.type p with
      | some v => (unpackEntries? fields pairs).map ((field.label, v) :: ·)
      | none => none

/-- Reads the values of the first fields of a record, in order. -/
def unpackFields? : List (Field ι) → List Packed → Option (List (String × Value ι))
  | _, [] => some []
  | field :: fields, p :: ps =>
    match unpack? field.type p with
    | some v => (unpackFields? fields ps).map ((field.label, v) :: ·)
    | none => none
  | [], _ :: _ => none

end

variable {R} {t : ι}

def encodeRecord (r : Record R t) : List UInt8 :=
  (pack R (.embedded t) r.toValue).encode

/-- The record at the start of a list of bytes. -/
def decodeRecord? (R : Registry ι) (t : ι) (bytes : List UInt8) : Option (Record R t) :=
  match (Packed.decode? bytes).bind (unpack? R (.embedded t)) with
  | some (.record _ fields) => Record.ofFields? R t fields
  | _ => none

end RecordQuery.Codec
