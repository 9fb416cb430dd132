import RecordQuery.Floating.Decimal

/-!
# Shortest decimal numerals

The decimal numeral with the fewest digits that still reads back as a given number, and among those
the nearest one, a tie going upwards. The numbers that round to a given one form an interval whose
ends belong to it when the significand is even. A grid of decimals meets the interval exactly when
one of the two neighbours of the number on the grid lies in it, so the grids are tried from coarse
to fine.
-/

namespace RecordQuery

-- Powers of numbers are those of the core library.
attribute [local instance (1100)] instPowNat

def digitCount (n : Nat) : Nat :=
  (Nat.toDigits 10 n).length

/-- A positive number `value / unit` with the interval from `low / unit` to `high / unit` that
rounds to it; `closed` tells whether the ends belong to the interval. -/
structure RoundingInterval where
  value : Nat
  low : Nat
  high : Nat
  unit : Nat
  closed : Bool

namespace RoundingInterval

/-- The interval of a finite, non-zero number. The gap below a power of two is half as wide. -/
def ofFloating {l : Layout} (x : Floating l) : RoundingInterval :=
  let m := 4 * x.significand
  let below := if x.significand = 2 ^ l.fractionBits && 1 < x.exponentField then 1 else 2
  let quarter := x.exponent - 2
  let scale := 2 ^ quarter.toNat
  ⟨m * scale, (m - below) * scale, (m + 2) * scale, 2 ^ (-quarter).toNat, x.significand % 2 = 0⟩

/-- The greatest `k` with `10 ^ k` at most the value. -/
def log10 (r : RoundingInterval) : Int :=
  let k : Int := (digitCount r.value : Int) - digitCount r.unit
  if r.unit * 10 ^ k.toNat ≤ r.value * 10 ^ (-k).toNat then k else k - 1

/-- The numeral on the grid of multiples of `10 ^ k` that lies in the interval, nearest to the
value, if there is one. -/
def onGrid? (r : RoundingInterval) (k : Int) : Option Decimal :=
  let grid := r.unit * 10 ^ k.toNat
  let scale := 10 ^ (-k).toNat
  let value := r.value * scale
  let low := r.low * scale
  let high := r.high * scale
  let inside (n : Nat) : Bool :=
    if r.closed then low ≤ n && n ≤ high else low < n && n < high
  let floor := value / grid
  let down := inside (floor * grid)
  let up := inside ((floor + 1) * grid)
  if up && (!down || (floor + 1) * grid - value ≤ value - floor * grid) then some ⟨floor + 1, k⟩
  else if down then some ⟨floor, k⟩
  else none

end RoundingInterval

namespace Floating

/-- Enough digits to tell any two numbers of the format apart. -/
def digitLimit (l : Layout) : Nat :=
  (l.fractionBits + 1) * 30103 / 100000 + 2

/-- The shortest decimal numeral of a finite, non-zero magnitude. Ten units of the first place are
one unit of the place before it. -/
def shortest {l : Layout} (x : Floating l) : Decimal :=
  let interval := RoundingInterval.ofFloating x
  let top := interval.log10
  let found? :=
    (List.range (digitLimit l)).findSome? fun (n : Nat) ↦ interval.onGrid? (top - (n : Int))
  match found? with
  | some d => if d.digits = 10 then ⟨1, d.exponent + 1⟩ else d
  | none => ⟨0, 0⟩

end Floating

end RecordQuery
