import RecordQuery.Number
import RecordQuery.Schema

/-!
# Values

The values that fields hold, that paths resolve to and that filters compare. A record is given by
its type and by the values of all its fields in declaration order, hidden ones included; a record
that is not set is null.
-/

namespace RecordQuery

/-- A value. Single precision numbers are held as the double of the same value. -/
inductive Value (ι : Type) where
  | null
  | bool (b : Bool)
  | number (n : Number)
  | string (s : String)
  | list (items : List (Value ι))
  | map (pairs : List (Value ι × Value ι))
  | record (t : ι) (fields : List (Value ι))

instance {ι : Type} : Inhabited (Value ι) := ⟨.null⟩

/-- The outermost form of a value. -/
inductive Shape where
  | null
  | bool
  | number
  | string
  | list
  | map
  | record
deriving DecidableEq

def Shape.name : Shape → String
  | null => "null"
  | bool => "bool"
  | number => "number"
  | string => "string"
  | list => "list"
  | map => "map"
  | record => "record"

namespace Value

variable {ι : Type}

def shape : Value ι → Shape
  | null => .null
  | bool _ => .bool
  | number _ => .number
  | string _ => .string
  | list _ => .list
  | map _ => .map
  | record .. => .record

def toBool? : Value ι → Option Bool
  | bool b => some b
  | _ => none

def toNumber? : Value ι → Option Number
  | number n => some n
  | _ => none

def toText? : Value ι → Option String
  | string s => some s
  | _ => none

/-- The type of the record, if the value is one. -/
def recordType? : Value ι → Option ι
  | record t _ => some t
  | _ => none

def ofSigned (n : Int) : Value ι :=
  number (.signed (.ofInt n))

def ofUnsigned (n : Int) : Value ι :=
  number (.unsigned (.ofNat n.toNat))

/-- The value of an integer type for an integer in its range. -/
def ofInteger (t : IntegerType) (n : Int) : Value ι :=
  if t.isSigned then ofSigned n else ofUnsigned n

/-- Whether a field with this value counts as set: anything but null, false, zero, the empty text
and the empty list or map. -/
def isSet : Value ι → Bool
  | null => false
  | bool b => b
  | number n => n.isNonZero
  | string s => !s.toList.isEmpty
  | list items => !items.isEmpty
  | map pairs => !pairs.isEmpty
  | record .. => true

end Value

/-- The value that an absent field of a kind reads as. -/
def Kind.zero {ι : Type} : Kind ι → Value ι
  | bool => .bool false
  | int => .ofSigned 0
  | uint => .ofUnsigned 0
  | float => .number (.float (.zero .binary64 false))
  | string => .string ""
  | record _ => .null

end RecordQuery
