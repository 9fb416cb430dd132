import RecordQuery.Floating.Shortest
import RecordQuery.Proofs.Floating.Rounding

/-!
# The shortest numeral lies in the rounding interval

A numeral that is found on a grid of decimals lies in the interval, and one is found as soon as the
grid is finer than the interval is wide. For doubles that is so for the last grid that is tried.
-/

namespace RecordQuery

-- Powers of numbers are those of the core library.
attribute [local instance (1100)] instPowNat

def Decimal.toRat (d : Decimal) : ℚ :=
  d.digits * 10 ^ d.exponent

namespace RoundingInterval

variable {r : RoundingInterval} {k : Int}

def Contains (r : RoundingInterval) (v : ℚ) : Prop :=
  if r.closed then (r.low : ℚ) / r.unit ≤ v ∧ v ≤ r.high / r.unit
  else (r.low : ℚ) / r.unit < v ∧ v < r.high / r.unit

section Grid

variable {unit : Nat} (hunit : 0 < unit) (k : Int) (a n : Nat)

include hunit

theorem scaled_le_grid_iff :
    a * 10 ^ (-k).toNat ≤ n * (unit * 10 ^ k.toNat) ↔ (a : ℚ) / unit ≤ n * 10 ^ k := by
  have hunit' : (0 : ℚ) < unit := by exact_mod_cast hunit
  have hten := zpow_eq_div 10 k
  rw [Nat.cast_ofNat] at hten
  rw [hten, mul_div_assoc', div_le_div_iff₀ hunit' (by positivity), ← Nat.cast_le (α := ℚ)]
  push_cast
  rw [mul_assoc (n : ℚ), mul_comm (10 ^ k.toNat) (unit : ℚ)]

theorem grid_le_scaled_iff :
    n * (unit * 10 ^ k.toNat) ≤ a * 10 ^ (-k).toNat ↔ (n * 10 ^ k : ℚ) ≤ a / unit := by
  have hunit' : (0 : ℚ) < unit := by exact_mod_cast hunit
  have hten := zpow_eq_div 10 k
  rw [Nat.cast_ofNat] at hten
  rw [hten, mul_div_assoc', div_le_div_iff₀ (by positivity) hunit', ← Nat.cast_le (α := ℚ)]
  push_cast
  rw [mul_assoc (n : ℚ), mul_comm (10 ^ k.toNat) (unit : ℚ)]

end Grid

/-- Whether the interval contains a multiple of a power of ten. -/
def meets (r : RoundingInterval) (k : Int) (n : Nat) : Bool :=
  if r.closed then
    r.low * 10 ^ (-k).toNat ≤ n * (r.unit * 10 ^ k.toNat) &&
      n * (r.unit * 10 ^ k.toNat) ≤ r.high * 10 ^ (-k).toNat
  else
    r.low * 10 ^ (-k).toNat < n * (r.unit * 10 ^ k.toNat) &&
      n * (r.unit * 10 ^ k.toNat) < r.high * 10 ^ (-k).toNat

theorem onGrid?_eq (r : RoundingInterval) (k : Int) :
    r.onGrid? k =
      let grid := r.unit * 10 ^ k.toNat
      let value := r.value * 10 ^ (-k).toNat
      if r.meets k (value / grid + 1) && (!r.meets k (value / grid) ||
          decide ((value / grid + 1) * grid - value ≤ value - value / grid * grid)) then
        some ⟨value / grid + 1, k⟩
      else if r.meets k (value / grid) then some ⟨value / grid, k⟩
      else none :=
  rfl

theorem meets_iff (hunit : 0 < r.unit) (n : Nat) :
    r.meets k n = true ↔ r.Contains (n * 10 ^ k) := by
  unfold meets Contains
  split
  · simp only [Bool.and_eq_true, decide_eq_true_eq, scaled_le_grid_iff hunit, grid_le_scaled_iff hunit]
  · simp only [Bool.and_eq_true, decide_eq_true_eq, ← not_le, scaled_le_grid_iff hunit,
      grid_le_scaled_iff hunit]

theorem contains_of_onGrid? (hunit : 0 < r.unit) {d : Decimal} (h : r.onGrid? k = some d) :
    r.Contains d.toRat := by
  rw [onGrid?_eq] at h
  dsimp only at h
  split at h
  · rename_i hup
    obtain rfl := Option.some.inj h
    exact (meets_iff hunit _).1 (Bool.and_eq_true_iff.1 hup).1
  · split at h
    · rename_i hdown
      obtain rfl := Option.some.inj h
      exact (meets_iff hunit _).1 hdown
    · simp at h

/-- One of the neighbours on a grid that is finer than the interval is wide lies in it. -/
theorem isSome_onGrid? (hunit : 0 < r.unit) (hlow : r.low < r.value) (hhigh : r.value < r.high)
    (hgrid : (10 : ℚ) ^ k < (r.high - r.low) / r.unit) : (r.onGrid? k).isSome := by
  have hscale : 0 < 10 ^ (-k).toNat := Nat.pow_pos (by decide)
  have hpos : 0 < r.unit * 10 ^ k.toNat := Nat.mul_pos hunit (Nat.pow_pos (by decide))
  have hgrid' : r.unit * 10 ^ k.toNat + r.low * 10 ^ (-k).toNat < r.high * 10 ^ (-k).toNat := by
    have hten := zpow_eq_div 10 k
    rw [Nat.cast_ofNat] at hten
    rw [hten, div_lt_div_iff₀ (by positivity) (by exact_mod_cast hunit)] at hgrid
    have : (r.unit * 10 ^ k.toNat + r.low * 10 ^ (-k).toNat : ℚ) < r.high * 10 ^ (-k).toNat := by
      linarith
    exact_mod_cast this
  have hlow' := Nat.mul_lt_mul_of_pos_right hlow hscale
  have hhigh' := Nat.mul_lt_mul_of_pos_right hhigh hscale
  have hfloor := Nat.div_mul_le_self (r.value * 10 ^ (-k).toNat) (r.unit * 10 ^ k.toNat)
  have hceil : r.value * 10 ^ (-k).toNat <
      (r.value * 10 ^ (-k).toNat / (r.unit * 10 ^ k.toNat) + 1) * (r.unit * 10 ^ k.toNat) := by
    rw [Nat.mul_comm (_ + 1)]
    exact Nat.lt_mul_div_succ _ hpos
  have hmeets : r.meets k (r.value * 10 ^ (-k).toNat / (r.unit * 10 ^ k.toNat)) = true ∨
      r.meets k (r.value * 10 ^ (-k).toNat / (r.unit * 10 ^ k.toNat) + 1) = true := by
    unfold meets
    generalize r.value * 10 ^ (-k).toNat / (r.unit * 10 ^ k.toNat) = floor at *
    rw [Nat.add_mul, Nat.one_mul] at hceil ⊢
    split <;> simp only [Bool.and_eq_true, decide_eq_true_eq] <;> omega
  rw [onGrid?_eq]
  dsimp only
  cases hdown : r.meets k (r.value * 10 ^ (-k).toNat / (r.unit * 10 ^ k.toNat)) with
  | true => split <;> rfl
  | false => simp [hmeets.resolve_left (by simp [hdown])]

theorem ten_pow_digitCount_le {n : Nat} (hn : n ≠ 0) : (10 : ℚ) ^ digitCount n ≤ 10 * n := by
  have hlt : ¬ digitCount n ≤ digitCount n - 1 := by
    have : 0 < digitCount n := Nat.length_toDigits_pos
    omega
  by_cases hone : digitCount n - 1 = 0
  · have hcount : digitCount n = 1 := by
      have : 0 < digitCount n := Nat.length_toDigits_pos
      omega
    rw [hcount, pow_one]
    have : (1 : ℚ) ≤ n := by exact_mod_cast Nat.pos_of_ne_zero hn
    linarith
  · have hle : 10 ^ (digitCount n - 1) ≤ n := by
      by_contra h
      exact hlt ((Nat.length_toDigits_le_iff (by decide) (by omega)).2 (by omega))
    have hsucc : 10 ^ digitCount n ≤ 10 * n := by
      rw [show digitCount n = digitCount n - 1 + 1 by omega, Nat.pow_succ, Nat.mul_comm]
      exact Nat.mul_le_mul_left 10 hle
    exact_mod_cast hsucc

theorem lt_ten_pow_digitCount (n : Nat) : (n : ℚ) < 10 ^ digitCount n := by
  have hlt : n < 10 ^ digitCount n :=
    (Nat.length_toDigits_le_iff (by decide) Nat.length_toDigits_pos).1 (Nat.le_refl _)
  exact_mod_cast hlt

theorem ten_pow_log10_le (hunit : 0 < r.unit) (hvalue : r.value ≠ 0) :
    (10 : ℚ) ^ r.log10 ≤ r.value / r.unit := by
  have hunit' : (0 : ℚ) < r.unit := by exact_mod_cast hunit
  unfold log10
  dsimp only
  split
  · rename_i h
    have hgrid := (grid_le_scaled_iff hunit _ r.value 1).1 (by rwa [Nat.one_mul])
    rwa [Nat.cast_one, one_mul] at hgrid
  · rw [le_div_iff₀ hunit']
    have hten : (10 : ℚ) ^ ((digitCount r.value : Int) - digitCount r.unit - 1) =
        10 ^ digitCount r.value / 10 / 10 ^ digitCount r.unit := by
      rw [zpow_sub₀ (by norm_num), zpow_sub₀ (by norm_num), zpow_one, zpow_natCast, zpow_natCast]
      ring
    rw [hten, div_mul_eq_mul_div, div_le_iff₀ (by positivity)]
    have hupper := ten_pow_digitCount_le hvalue
    have hlower := (lt_ten_pow_digitCount r.unit).le
    calc
      _ ≤ (r.value : ℚ) * r.unit := mul_le_mul_of_nonneg_right (by linarith) hunit'.le
      _ ≤ _ := mul_le_mul_of_nonneg_left hlower (by positivity)

end RoundingInterval

namespace Floating

open RoundingInterval

section Interval

variable {l : Layout} (x : Floating l)

/-- How far the interval of a number reaches below it, in quarters of its last place. -/
def reach : Nat :=
  if x.significand = 2 ^ l.fractionBits ∧ 1 < x.exponentField then 1 else 2

theorem reach_eq : ((x.reach : Nat) : ℚ) / 4 =
    if x.significand = 2 ^ l.fractionBits ∧ 1 < x.exponentField then 1 / 4 else 1 / 2 := by
  unfold reach
  split_ifs <;> norm_num

theorem reach_lt (hx : x.significand ≠ 0) : x.reach < 4 * x.significand := by
  unfold reach
  split_ifs <;> omega

theorem ofFloating_eq : ofFloating x =
    ⟨4 * x.significand * 2 ^ (x.exponent - 2).toNat,
      (4 * x.significand - x.reach) * 2 ^ (x.exponent - 2).toNat,
      (4 * x.significand + 2) * 2 ^ (x.exponent - 2).toNat,
      2 ^ (-(x.exponent - 2)).toNat, x.significand % 2 = 0⟩ := by
  unfold ofFloating reach
  simp only [Bool.and_eq_true, decide_eq_true_eq]

theorem unit_ofFloating_pos : 0 < (ofFloating x).unit :=
  Nat.two_pow_pos _

/-- Quarters of the last place, over the unit of the interval. -/
theorem quarters_div_unit (n : Nat) :
    ((n * 2 ^ (x.exponent - 2).toNat : Nat) : ℚ) / (ofFloating x).unit =
      n / 4 * 2 ^ x.exponent := by
  have htwo := zpow_eq_div 2 (x.exponent - 2)
  rw [Nat.cast_ofNat] at htwo
  rw [ofFloating_eq]
  push_cast
  rw [mul_div_assoc, ← htwo, zpow_sub₀ two_ne_zero]
  ring

theorem value_ofFloating :
    ((ofFloating x).value : ℚ) / (ofFloating x).unit = x.significand * 2 ^ x.exponent := by
  rw [show (ofFloating x).value = 4 * x.significand * 2 ^ (x.exponent - 2).toNat from rfl,
    x.quarters_div_unit]
  push_cast
  ring

theorem low_ofFloating (hx : x.significand ≠ 0) :
    ((ofFloating x).low : ℚ) / (ofFloating x).unit =
      (x.significand - x.reach / 4) * 2 ^ x.exponent := by
  rw [show (ofFloating x).low = (4 * x.significand - x.reach) * 2 ^ (x.exponent - 2).toNat by
    rw [ofFloating_eq], x.quarters_div_unit, Nat.cast_sub (x.reach_lt hx).le]
  push_cast
  ring

theorem high_ofFloating :
    ((ofFloating x).high : ℚ) / (ofFloating x).unit =
      (x.significand + 1 / 2) * 2 ^ x.exponent := by
  rw [show (ofFloating x).high = (4 * x.significand + 2) * 2 ^ (x.exponent - 2).toNat from rfl,
    x.quarters_div_unit]
  push_cast
  ring

variable {x}

/-- The numbers of the interval round to the number that the interval is made for. -/
theorem InInterval.of_contains {v : ℚ} (hl : l.fractionBits ≠ 0) (hx : x.significand ≠ 0)
    (h : (ofFloating x).Contains v) : x.InInterval v := by
  unfold Contains at h
  rw [x.low_ofFloating hx, x.high_ofFloating, ofFloating_eq] at h
  by_cases heven : x.significand % 2 = 0
  · rw [if_pos (by simp [heven])] at h
    refine ⟨x.reach_eq ▸ h.1, h.2, ?_⟩
    intro hodd
    omega
  · rw [if_neg (by simp [heven])] at h
    have hreach : (x.reach : ℚ) / 4 = 1 / 2 := by
      rw [reach_eq, if_neg]
      rintro ⟨hpower, -⟩
      rw [hpower, ← Nat.succ_pred_eq_of_ne_zero hl, Nat.pow_succ] at heven
      omega
    refine ⟨x.reach_eq ▸ h.1.le, h.2.le, ?_⟩
    intro hodd
    rw [hreach] at h
    exact h

end Interval

section Doubles

variable {x : Double}

/-- A grid of 17 digits is finer than the rounding interval is wide, so it has a point in it. -/
theorem ten_pow_lt_width (hx : x.significand ≠ 0) :
    (10 : ℚ) ^ ((ofFloating x).log10 - 16) <
      ((ofFloating x).high - (ofFloating x).low) / (ofFloating x).unit := by
  have hpos : (0 : ℚ) < 2 ^ x.exponent := by positivity
  have hvalue : (ofFloating x).value ≠ 0 :=
    Nat.mul_ne_zero (Nat.mul_ne_zero (by decide) hx) (Nat.two_pow_pos _).ne'
  have hlog := ten_pow_log10_le x.unit_ofFloating_pos hvalue
  rw [x.value_ofFloating] at hlog
  have hbound : (x.significand : ℚ) / 10 ^ 16 < x.reach / 4 + 1 / 2 := by
    have hlt : x.significand < 2 ^ 53 := x.significand_lt
    have hlt : (x.significand : ℚ) + 1 ≤ 2 ^ 53 := by exact_mod_cast hlt
    rw [reach_eq, div_lt_iff₀ (by positivity)]
    split_ifs with hreach
    · have hpower : (x.significand : ℚ) = 2 ^ 52 := by exact_mod_cast hreach.1
      rw [hpower]
      norm_num
    · linarith
  calc
    _ = (10 : ℚ) ^ (ofFloating x).log10 / 10 ^ 16 := by
      rw [zpow_sub₀ (by norm_num)]
      rfl
    _ ≤ x.significand / 10 ^ 16 * 2 ^ x.exponent := by
      rw [div_mul_eq_mul_div]
      exact div_le_div_of_nonneg_right hlog (by positivity)
    _ < (x.reach / 4 + 1 / 2) * 2 ^ x.exponent := mul_lt_mul_of_pos_right hbound hpos
    _ = _ := by
      rw [sub_div, x.high_ofFloating, x.low_ofFloating hx]
      ring

/-- The shortest numeral of a double lies in its rounding interval. -/
theorem contains_shortest (hx : x.significand ≠ 0) :
    (ofFloating x).Contains x.shortest.toRat := by
  have hscale := Nat.two_pow_pos (x.exponent - 2).toNat
  have hreach := x.reach_lt hx
  have hpositive : 0 < x.reach := by
    unfold reach
    split_ifs <;> decide
  have hgrid : ((ofFloating x).onGrid? ((ofFloating x).log10 - (16 : Nat))).isSome := by
    apply isSome_onGrid? x.unit_ofFloating_pos
    · rw [ofFloating_eq]
      exact Nat.mul_lt_mul_of_pos_right (by omega) hscale
    · rw [ofFloating_eq]
      exact Nat.mul_lt_mul_of_pos_right (by omega) hscale
    · exact ten_pow_lt_width hx
  unfold shortest
  dsimp only
  split
  · rename_i d hfound
    obtain ⟨n, -, hn⟩ := List.exists_of_findSome?_eq_some hfound
    have hcontains := contains_of_onGrid? x.unit_ofFloating_pos hn
    split
    · rename_i hten
      have hvalue : Decimal.toRat ⟨1, d.exponent + 1⟩ = d.toRat := by
        unfold Decimal.toRat
        rw [hten, zpow_add₀ (by norm_num)]
        push_cast
        ring
      rwa [hvalue]
    · exact hcontains
  · rename_i hnone
    have hmem : 16 ∈ List.range (digitLimit .binary64) := List.mem_range.2 (by decide)
    rw [List.findSome?_eq_none_iff.1 hnone 16 hmem] at hgrid
    exact absurd hgrid (by simp)

theorem digits_shortest_ne_zero (hx : x.significand ≠ 0) : x.shortest.digits ≠ 0 := by
  intro hzero
  have hcontains := (InInterval.of_contains (by decide) hx (contains_shortest hx)).low
  unfold Decimal.toRat at hcontains
  rw [hzero, Nat.cast_zero, zero_mul] at hcontains
  have hpos : (0 : ℚ) < 2 ^ x.exponent := by positivity
  have hone : (1 : ℚ) ≤ x.significand := by exact_mod_cast Nat.pos_of_ne_zero hx
  have := mul_pos (show (0 : ℚ) < x.significand - (if x.significand =
    2 ^ Layout.binary64.fractionBits ∧ 1 < x.exponentField then 1 / 4 else 1 / 2) by
      split_ifs <;> linarith) hpos
  linarith

end Doubles

end Floating

end RecordQuery
