import RecordQuery.Floating.Shortest

/-!
# Writing floating-point numbers

A number is written with its shortest digits. The two styles differ in whether an integral value
carries a `.0` and in which magnitudes are written with an exponent.
-/

namespace RecordQuery

/-- How the shortest digits of a number are laid out. -/
structure NumeralStyle where
  /-- Whether an integral value ends in `.0`. -/
  pointZero : Bool
  /-- The least and the greatest decimal exponent written positionally; `none` for all. -/
  positional : Option (Int × Int)

namespace NumeralStyle

/-- Always positional, with a point only before further digits. -/
def plain : NumeralStyle := ⟨false, none⟩

/-- Always recognisable as a float: `.0` after integral values, and an exponent below `0.0001` and
from `10 ^ 16` on. -/
def explicit : NumeralStyle := ⟨true, some (-4, 15)⟩

/-- Whether a number whose first digit has weight `10 ^ e` is written positionally. -/
def isPositional (style : NumeralStyle) (e : Int) : Bool :=
  match style.positional with
  | none => true
  | some (least, greatest) => least ≤ e && e ≤ greatest

/-- A non-zero numeral without its sign. -/
def write (style : NumeralStyle) (d : Decimal) : String :=
  let digits := Nat.toDigits 10 d.digits
  let top : Int := digits.length - 1 + d.exponent
  let pointZero := if style.pointZero then ['.', '0'] else []
  if style.isPositional top then
    match d.exponent with
    | .ofNat e => String.ofList (digits ++ List.replicate e '0' ++ pointZero)
    | .negSucc e =>
      let places := e + 1
      if places < digits.length then
        String.ofList (digits.take (digits.length - places) ++ ['.'] ++
          digits.drop (digits.length - places))
      else
        String.ofList (['0', '.'] ++ List.replicate (places - digits.length) '0' ++ digits)
  else
    let mantissa :=
      match digits with
      | [] => []
      | [first] => [first]
      | first :: rest => first :: '.' :: rest
    String.ofList mantissa ++ "e" ++ toString top

end NumeralStyle

def Floating.text {l : Layout} (style : NumeralStyle) (x : Floating l) : String :=
  let sign := if x.negative then "-" else ""
  if x.isNaN then "NaN"
  else if x.isInfinite then sign ++ "inf"
  else if x.isZero then sign ++ (if style.pointZero then "0.0" else "0")
  else sign ++ style.write x.shortest

end RecordQuery
