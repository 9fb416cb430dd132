import RecordQuery.Floating.Numeral

/-!
# Numbers

The numbers a record can hold: signed and unsigned 64-bit integers and doubles. Integers compare
exactly whatever their signedness; as soon as a double takes part, both sides are compared as
doubles. A value that is not a number is incomparable in queries and comes last when records are
sorted.
-/

namespace RecordQuery

/-- A number with the representation it came in. -/
inductive Number where
  | signed (n : Int64)
  | unsigned (n : UInt64)
  | float (x : Double)
deriving DecidableEq

namespace Number

/-- The integer held by a number of an integer representation. -/
def integer? : Number → Option Int
  | signed n => some n.toInt
  | unsigned n => some n.toNat
  | float _ => none

def toDouble : Number → Double
  | signed n => .ofInt .binary64 n.toInt
  | unsigned n => .ofInt .binary64 n.toNat
  | float x => x

/-- Whether the number is a double that is not a number. -/
def isNaN : Number → Bool
  | float x => x.isNaN
  | _ => false

def maxSigned : Int := 0x7FFFFFFFFFFFFFFF

def maxUnsigned : Int := 0xFFFFFFFFFFFFFFFF

/-- The number as a signed integer. An integral double one above the greatest signed integer, which
is the nearest double of that integer, is taken for it. -/
def toSigned? : Number → Option Int
  | signed n => some n.toInt
  | unsigned n => if n.toNat ≤ maxSigned then some n.toNat else none
  | float x =>
    x.integral?.bind fun n ↦
      if -maxSigned - 1 ≤ n ∧ n ≤ maxSigned + 1 then some (min n maxSigned) else none

/-- The number as an unsigned integer. An integral double one above the greatest unsigned integer,
which is the nearest double of that integer, is taken for it. -/
def toUnsigned? : Number → Option Int
  | signed n => if 0 ≤ n.toInt then some n.toInt else none
  | unsigned n => some n.toNat
  | float x =>
    x.integral?.bind fun n ↦
      if 0 ≤ n ∧ n ≤ maxUnsigned + 1 then some (min n maxUnsigned) else none

/-- The order of two numbers; undefined when one of them is not a number. -/
def compare? (a b : Number) : Option Ordering :=
  match a.integer?, b.integer? with
  | some m, some n => some (compareInts m n)
  | _, _ => a.toDouble.compare? b.toDouble

/-- Whether two numbers have the same value. -/
def same (a b : Number) : Bool :=
  a.compare? b == some .eq

/-- The order in which numbers are sorted: what is not a number comes last. -/
def totalCompare (a b : Number) : Ordering :=
  match a.isNaN, b.isNaN with
  | true, true => .eq
  | true, false => .gt
  | false, true => .lt
  | false, false => (a.compare? b).getD .eq

/-- Whether the number differs from zero. -/
def isNonZero : Number → Bool
  | signed n => n.toInt != 0
  | unsigned n => n.toNat != 0
  | float x => !x.isZero

/-- The plain text of a number. -/
def text : Number → String
  | signed n => toString n.toInt
  | unsigned n => toString n.toNat
  | float x => x.text .plain

/-- The text of a number that also shows its representation. -/
def debugText : Number → String
  | signed n => "I64(" ++ toString n.toInt ++ ")"
  | unsigned n => "U64(" ++ toString n.toNat ++ ")"
  | float x => "F64(" ++ x.text .explicit ++ ")"

end Number

end RecordQuery
