/-!
# Binary floating-point numbers

A binary interchange format is given by the sizes of its exponent and fraction. A number of the
format is its sign and its magnitude bits, read as a natural number: finite magnitudes come first,
then infinity, then the values that are not a number. Because larger magnitude bits mean a larger
magnitude, the order of two numbers is the order of two integers.
-/

namespace RecordQuery

-- Powers of numbers are those of the core library.
attribute [local instance (1100)] instPowNat

def compareInts (a b : Int) : Ordering :=
  if a < b then .lt else if b < a then .gt else .eq

/-- The sizes in bits of the exponent and of the fraction of a binary interchange format. -/
structure Layout where
  exponentBits : Nat
  fractionBits : Nat
deriving DecidableEq

namespace Layout

def binary32 : Layout := ⟨8, 23⟩

def binary64 : Layout := ⟨11, 52⟩

/-- The number of bits besides the sign. -/
def magnitudeBits (l : Layout) : Nat :=
  l.exponentBits + l.fractionBits

/-- The magnitude bits of infinity: the exponent all ones, the fraction zero. -/
def infinity (l : Layout) : Nat :=
  (2 ^ l.exponentBits - 1) * 2 ^ l.fractionBits

/-- The binary exponent of the last place of the smallest numbers. -/
def leastExponent (l : Layout) : Int :=
  2 - (2 ^ (l.exponentBits - 1) : Nat) - l.fractionBits

theorem infinity_lt (l : Layout) : l.infinity < 2 ^ l.magnitudeBits := by
  have h : 0 < 2 ^ l.fractionBits := Nat.two_pow_pos _
  have h' : 0 < 2 ^ l.exponentBits := Nat.two_pow_pos _
  rw [infinity, magnitudeBits, Nat.pow_add]
  exact Nat.mul_lt_mul_of_pos_right (by omega) h

end Layout

/-- A floating-point number: a sign, and the bits of the magnitude as a natural number. -/
structure Floating (l : Layout) where
  negative : Bool
  magnitude : Nat
  magnitude_lt : magnitude < 2 ^ l.magnitudeBits
deriving DecidableEq

abbrev Double := Floating .binary64

abbrev Single := Floating .binary32

namespace Floating

variable {l : Layout}

/-- The number with the given bits; bits beyond the width of the format are ignored. -/
def ofBits (l : Layout) (bits : Nat) : Floating l where
  negative := bits / 2 ^ l.magnitudeBits % 2 == 1
  magnitude := bits % 2 ^ l.magnitudeBits
  magnitude_lt := Nat.mod_lt _ (Nat.two_pow_pos _)

/-- The bits of a number, the sign first. -/
def toBits (x : Floating l) : Nat :=
  x.negative.toNat * 2 ^ l.magnitudeBits + x.magnitude

/-- Every number is the one its bits describe: the bits lose nothing. -/
theorem ofBits_toBits (x : Floating l) : ofBits l x.toBits = x := by
  obtain ⟨s, m, h⟩ := x
  have hp : 0 < 2 ^ l.magnitudeBits := Nat.two_pow_pos _
  cases s
  · simp [ofBits, toBits, Nat.mod_eq_of_lt h, Nat.div_eq_of_lt h]
  · simp [ofBits, toBits, Nat.mod_eq_of_lt h, Nat.add_div_left, Nat.div_eq_of_lt h, hp]

/-- Infinity of the given sign. -/
def infinite (l : Layout) (negative : Bool) : Floating l :=
  ⟨negative, l.infinity, l.infinity_lt⟩

/-- Zero of the given sign. -/
def zero (l : Layout) (negative : Bool) : Floating l :=
  ⟨negative, 0, Nat.two_pow_pos _⟩

/-- Whether the value is not a number. -/
def isNaN (x : Floating l) : Bool :=
  l.infinity < x.magnitude

def isInfinite (x : Floating l) : Bool :=
  x.magnitude == l.infinity

/-- Whether the value is a zero of either sign. -/
def isZero (x : Floating l) : Bool :=
  x.magnitude == 0

def exponentField (x : Floating l) : Nat :=
  x.magnitude / 2 ^ l.fractionBits

/-- The integer `m` such that a finite value has magnitude `m * 2 ^ x.exponent`. -/
def significand (x : Floating l) : Nat :=
  if x.exponentField = 0 then x.magnitude
  else 2 ^ l.fractionBits + x.magnitude % 2 ^ l.fractionBits

/-- The binary exponent of the last place of a finite value. -/
def exponent (x : Floating l) : Int :=
  l.leastExponent + (x.exponentField - 1 : Nat)

/-- The integer by which numbers are ordered; the two zeros have the same key. -/
def key (x : Floating l) : Int :=
  if x.negative then -(x.magnitude : Int) else x.magnitude

/-- The order of two numbers; undefined when one of them is not a number. -/
def compare? (x y : Floating l) : Option Ordering :=
  if x.isNaN || y.isNaN then none else some (compareInts x.key y.key)

/-- The integer that a number equals, if it is finite and integral. -/
def integral? (x : Floating l) : Option Int :=
  if l.infinity ≤ x.magnitude then none
  else
    let magnitude? : Option Nat :=
      match x.exponent with
      | .ofNat e => some (x.significand * 2 ^ e)
      | .negSucc e =>
        if x.significand % 2 ^ (e + 1) = 0 then some (x.significand / 2 ^ (e + 1)) else none
    magnitude?.map fun n ↦ if x.negative then -(n : Int) else n

end Floating

end RecordQuery
