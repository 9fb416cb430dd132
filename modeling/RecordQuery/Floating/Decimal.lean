import RecordQuery.Floating.Rounding

/-!
# Decimal text to floating-point numbers

A decimal numeral has digits with at most one point among them and an optional exponent; it is read
as the nearest number of the format. The words for infinity and for a value that is not a number are
accepted in any letter case.
-/

namespace RecordQuery

-- Powers of numbers are those of the core library.
attribute [local instance (1100)] instPowNat

/-- A decimal numeral `digits * 10 ^ exponent`. -/
structure Decimal where
  digits : Nat
  exponent : Int
deriving DecidableEq

namespace Decimal

/-- The natural number written by a run of decimal digits. -/
def value (cs : List Char) : Nat :=
  cs.foldl (fun n c ↦ 10 * n + (c.toNat - 48)) 0

/-- Splits off a sign; the flag is whether it is a minus. -/
def readSign : List Char → Bool × List Char
  | '-' :: cs => (true, cs)
  | '+' :: cs => (false, cs)
  | cs => (false, cs)

/-- The exponent part of a numeral, which may be absent. -/
def readExponent? : List Char → Option Int
  | [] => some 0
  | mark :: cs =>
    if mark == 'e' || mark == 'E' then
      let (negative, digits) := readSign cs
      if !digits.isEmpty && digits.all Char.isDigit then
        some (if negative then -(value digits : Int) else value digits)
      else none
    else none

/-- An unsigned numeral: digits, a point with digits on at least one side, an exponent. -/
def read? (cs : List Char) : Option Decimal :=
  let whole := cs.takeWhile Char.isDigit
  let rest := cs.dropWhile Char.isDigit
  let (fraction, tail) :=
    match rest with
    | '.' :: after => (after.takeWhile Char.isDigit, after.dropWhile Char.isDigit)
    | _ => ([], rest)
  if whole.isEmpty && fraction.isEmpty then none
  else
    (readExponent? tail).map fun exponent ↦ ⟨value (whole ++ fraction), exponent - fraction.length⟩

end Decimal

namespace Floating

/-- The number nearest to a decimal numeral. Numerals far outside the range of the format need no
exact arithmetic. -/
def ofDecimal (l : Layout) (negative : Bool) (d : Decimal) : Floating l :=
  let limit : Int := (2 ^ l.exponentBits : Nat)
  if d.digits = 0 then zero l negative
  else if limit < d.exponent then infinite l negative
  else if (Nat.toDigits 10 d.digits).length + d.exponent < -limit then zero l negative
  else nearest l negative (d.digits * 10 ^ d.exponent.toNat) (10 ^ (-d.exponent).toNat)

/-- The number that a text denotes. -/
def ofText? (l : Layout) (s : String) : Option (Floating l) :=
  let (negative, cs) := Decimal.readSign s.toList
  let word := String.ofList (cs.map Char.toLower)
  if word == "inf" || word == "infinity" then some (infinite l negative)
  else if word == "nan" then some (quiet l negative)
  else (Decimal.read? cs).map (ofDecimal l negative)

end Floating

end RecordQuery
