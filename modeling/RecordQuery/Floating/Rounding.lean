import RecordQuery.Floating.Basic

/-!
# Rounding to a binary format

A positive rational number is rounded to the nearest number of a format, a tie going to the even
neighbour; a magnitude beyond the finite range becomes infinity. Integers and numbers of another
format are converted through this one operation. A negative power of two is written by its inverse
in the denominator, so that all arithmetic is on natural numbers.
-/

namespace RecordQuery

-- Powers of numbers are those of the core library.
attribute [local instance (1100)] instPowNat

/-- The quotient `num / den` rounded to the nearest integer, a tie going to the even one. -/
def roundHalfEven (num den : Nat) : Nat :=
  let quotient := num / den
  let remainder := num % den
  if 2 * remainder < den then quotient
  else if den < 2 * remainder then quotient + 1
  else if quotient % 2 = 0 then quotient
  else quotient + 1

/-- The greatest `e` with `2 ^ e ≤ num / den`, for positive `num` and `den`. -/
def log2Ratio (num den : Nat) : Int :=
  let e : Int := (Nat.log2 num : Int) - Nat.log2 den
  if den * 2 ^ e.toNat ≤ num * 2 ^ (-e).toNat then e else e - 1

namespace Floating

/-- The number with the given sign whose last place is `2 ^ exponent` and which has `significand`
there, or infinity beyond the finite range. -/
def ofSignificand (l : Layout) (negative : Bool) (exponent : Int) (significand : Nat) :
    Floating l :=
  ⟨negative, min ((exponent - l.leastExponent).toNat * 2 ^ l.fractionBits + significand) l.infinity,
    Nat.lt_of_le_of_lt (Nat.min_le_right _ _) l.infinity_lt⟩

/-- The number nearest to the rational `num / den`, with the given sign. -/
def nearest (l : Layout) (negative : Bool) (num den : Nat) : Floating l :=
  if num = 0 then zero l negative
  else
    let exponent := max l.leastExponent (log2Ratio num den - l.fractionBits)
    ofSignificand l negative exponent
      (roundHalfEven (num * 2 ^ (-exponent).toNat) (den * 2 ^ exponent.toNat))

/-- The number nearest to `m * 2 ^ e`, with the given sign. -/
def nearestScaled (l : Layout) (negative : Bool) (m : Nat) (e : Int) : Floating l :=
  nearest l negative (m * 2 ^ e.toNat) (2 ^ (-e).toNat)

def ofInt (l : Layout) (n : Int) : Floating l :=
  nearestScaled l (n < 0) n.natAbs 0

/-- A value that is not a number, of the given sign: the first fraction bit is set, the others are
not. -/
def quiet (l : Layout) (negative : Bool) : Floating l :=
  ofBits l (negative.toNat * 2 ^ l.magnitudeBits + l.infinity + 2 ^ (l.fractionBits - 1))

/-- A number in another format. A value that is not a number keeps only its sign. -/
def convert {l : Layout} (m : Layout) (x : Floating l) : Floating m :=
  if x.isNaN then quiet m x.negative
  else if x.isInfinite then infinite m x.negative
  else nearestScaled m x.negative x.significand x.exponent

end Floating

end RecordQuery
