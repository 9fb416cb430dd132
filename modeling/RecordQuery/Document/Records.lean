import RecordQuery.Document.Json
import RecordQuery.Record.Assemble

/-!
# Records as JSON

A record is written as a map from the labels of its fields to their values; hidden fields are left
out. It is read from such a map, of which unknown keys are ignored, or from a list of the values in
order. Missing fields have the values of the default record. Null stands only for a record that is
not set, and integers are written without fraction and exponent.
-/

namespace RecordQuery.Json

variable {ι : Type} [DecidableEq ι] (R : Registry ι)

def keyText : Value ι → String
  | .bool b => if b then "true" else "false"
  | .number n => n.text
  | .string s => s
  | _ => ""

/-- The number as a document; what JSON has no number for is null. -/
def ofNumber : Number → Document
  | .float x => .plain (if x.isNaN || x.isInfinite then "null" else x.text .explicit)
  | n => .plain n.text

mutual

def ofValue : Value ι → Document
  | .null => .plain "null"
  | .bool b => .ofBool b
  | .number n => ofNumber n
  | .string s => .ofString s
  | .list items => .list (ofItems items)
  | .map pairs => .ofPairs (ofPairs pairs)
  | .record t fields => .ofPairs (ofFields (R.describe t).fields fields)

def ofItems : List (Value ι) → List Document
  | [] => []
  | v :: vs => ofValue v :: ofItems vs

/-- The pairs of a map as documents under texts. -/
def ofPairs : List (Value ι × Value ι) → List (String × Document)
  | [] => []
  | (key, v) :: pairs => (keyText key, ofValue v) :: ofPairs pairs

/-- The values of the fields that can be queried, under their labels. -/
def ofFields : List (Field ι) → List (Value ι) → List (String × Document)
  | field :: fields, v :: vs =>
    let rest := ofFields fields vs
    if field.isVisible then (field.label, ofValue v) :: rest else rest
  | _, _ => []

end

/-- The integer of a type that is written. -/
def readInteger? (type : IntegerType) (written : String) : Option (Value ι) :=
  (integer? written).bind fun n ↦ if type.contains n then some (.ofInteger type n) else none

/-- The float of a type nearest to the number that is written, which has to be finite. -/
def readFloat? (type : FloatType) (written : String) : Option (Value ι) :=
  if isNumeral written.toList then
    (Floating.ofText? .binary64 written).bind fun x ↦
      if x.isInfinite then none
      else
        match type with
        | .double => some (.number (.float x))
        | .single => some (.number (.float ((x.convert .binary32).convert .binary64)))
  else none

def readScalar? : Scalar → Document → Option (Value ι)
  | .bool, d => (d.bool? .json).map .bool
  | .string, d => (d.text? .json).map .string
  | .integer type, .plain written => readInteger? type written
  | .float type, .plain written => readFloat? type written
  | _, _ => none

def readKey? : KeyType → String → Option (Value ι)
  | .bool, s => ((Document.plain s).bool? .json).map .bool
  | .string, s => some (.string s)
  | .integer type, s => readInteger? type s

mutual

/-- Reads a value of a field type. -/
def read? : FieldType ι → Document → Option (Value ι)
  | .scalar s, d => readScalar? s d
  | .optional _, .plain written => if written == "null" then some .null else none
  | .embedded t, .map pairs | .optional t, .map pairs =>
    (readEntries? (R.describe t).visible pairs).bind (R.assemble? t)
  | .embedded t, .list items | .optional t, .list items =>
    (readFields? (R.describe t).visible items).bind (R.assemble? t)
  | .repeated e, .list items => (readItems? e.fieldType items).map .list
  | .map key e, .map pairs => (readPairs? key e.fieldType pairs).map .mapOf
  | _, _ => none

def readItems? (type : FieldType ι) : List Document → Option (List (Value ι))
  | [] => some []
  | d :: ds =>
    match read? type d with
    | some v => (readItems? type ds).map (v :: ·)
    | none => none

def readPairs? (key : KeyType) (type : FieldType ι) :
    List (Option String × Document) → Option (List (Value ι × Value ι))
  | [] => some []
  | (k?, d) :: pairs =>
    match k?.bind (readKey? key), read? type d with
    | some k, some v => (readPairs? key type pairs).map ((k, v) :: ·)
    | _, _ => none

/-- Reads the values of the fields of a record that are named by keys. -/
def readEntries? (fields : List (Field ι)) :
    List (Option String × Document) → Option (List (String × Value ι))
  | [] => some []
  | (none, _) :: _ => none
  | (some key, d) :: pairs =>
    match fields.find? fun field ↦ field.label = key with
    | none => readEntries? fields pairs
    | some field =>
      match read? field.type d with
      | some v => (readEntries? fields pairs).map ((field.label, v) :: ·)
      | none => none

/-- Reads the values of the first fields of a record, in order. -/
def readFields? : List (Field ι) → List Document → Option (List (String × Value ι))
  | _, [] => some []
  | field :: fields, d :: ds =>
    match read? field.type d with
    | some v => (readFields? fields ds).map ((field.label, v) :: ·)
    | none => none
  | [], _ :: _ => none

end

variable {R} {t : ι}

def ofRecord (r : Record R t) : Document :=
  ofValue R r.toValue

def readRecord? (R : Registry ι) (t : ι) (d : Document) : Option (Record R t) :=
  match read? R (.embedded t) d with
  | some (.record _ fields) => Record.ofFields? R t fields
  | _ => none

def readRecords? (R : Registry ι) (t : ι) (d : Document) : Option (List (Record R t)) :=
  (d.items? .json).bind (List.mapM (readRecord? R t))

end RecordQuery.Json
