import Mathlib.Algebra.Order.Field.Power
import Mathlib.Data.Rat.Cast.Order
import Mathlib.Tactic.FieldSimp
import Mathlib.Tactic.Linarith
import Mathlib.Tactic.Positivity
import Mathlib.Tactic.Ring
import RecordQuery.Floating.Exact

/-!
# Rounding to the nearest number

Every rational number in the rounding interval of a floating-point number is rounded to it. The
interval reaches half a last place to both sides, and only a quarter below a power of two, where the
numbers below lie twice as close; its ends belong to it when the significand is even.
-/

namespace RecordQuery

-- Powers of numbers are those of the core library.
attribute [local instance (1100)] instPowNat

section Powers

theorem zpow_eq_div (b : Nat) (e : Int) :
    (b : ℚ) ^ e = (b : ℚ) ^ e.toNat / (b : ℚ) ^ (-e).toNat := by
  rcases le_total 0 e with he | he
  · rw [Int.toNat_of_nonpos (by omega : -e ≤ 0), pow_zero, div_one, ← zpow_natCast,
      Int.toNat_of_nonneg he]
  · rw [Int.toNat_of_nonpos he, pow_zero, one_div, ← zpow_natCast,
      Int.toNat_of_nonneg (by omega : 0 ≤ -e), zpow_neg, inv_inv]

/-- A quotient of integers, of which one is scaled by a power. -/
theorem div_scaled {b : Nat} (hb : 0 < b) (e : Int) (num den : Nat) :
    ((num * b ^ (-e).toNat : Nat) : ℚ) / (den * b ^ e.toNat : Nat) = num / den / (b : ℚ) ^ e := by
  have hpos : (0 : ℚ) < b := by exact_mod_cast hb
  rw [zpow_eq_div]
  push_cast
  field_simp

end Powers

section Logarithm

variable {num den : Nat}

theorem two_pow_log2_le (hnum : num ≠ 0) : (2 : ℚ) ^ Nat.log2 num ≤ num := by
  exact_mod_cast Nat.log2_self_le hnum

theorem lt_two_pow_log2 (num : Nat) : (num : ℚ) < 2 ^ (Nat.log2 num + 1) := by
  exact_mod_cast Nat.lt_log2_self

theorem two_zpow_sub_le (hnum : num ≠ 0) (hden : den ≠ 0) :
    (2 : ℚ) ^ ((Nat.log2 num : Int) - Nat.log2 den - 1) ≤ num / den := by
  have hden' : (0 : ℚ) < den := by exact_mod_cast Nat.pos_of_ne_zero hden
  rw [le_div_iff₀ hden']
  calc
    (2 : ℚ) ^ ((Nat.log2 num : Int) - Nat.log2 den - 1) * den ≤
        2 ^ ((Nat.log2 num : Int) - Nat.log2 den - 1) * 2 ^ (Nat.log2 den + 1) :=
      mul_le_mul_of_nonneg_left (lt_two_pow_log2 den).le (by positivity)
    _ = 2 ^ Nat.log2 num := by
      rw [← zpow_natCast, ← zpow_natCast, ← zpow_add₀ two_ne_zero]
      congr 1
      push_cast
      ring
    _ ≤ num := two_pow_log2_le hnum

theorem lt_two_zpow_sub (hden : den ≠ 0) :
    (num / den : ℚ) < 2 ^ ((Nat.log2 num : Int) - Nat.log2 den + 1) := by
  have hden' : (0 : ℚ) < den := by exact_mod_cast Nat.pos_of_ne_zero hden
  rw [div_lt_iff₀ hden']
  calc
    (num : ℚ) < 2 ^ (Nat.log2 num + 1) := lt_two_pow_log2 num
    _ = 2 ^ ((Nat.log2 num : Int) - Nat.log2 den + 1) * 2 ^ Nat.log2 den := by
      rw [← zpow_natCast, ← zpow_natCast, ← zpow_add₀ two_ne_zero]
      congr 1
      push_cast
      ring
    _ ≤ 2 ^ ((Nat.log2 num : Int) - Nat.log2 den + 1) * den :=
      mul_le_mul_of_nonneg_left (two_pow_log2_le hden) (by positivity)

/-- A positive quotient lies between two powers of two that follow each other. -/
theorem log2Ratio_spec (hnum : num ≠ 0) (hden : den ≠ 0) :
    (2 : ℚ) ^ log2Ratio num den ≤ num / den ∧ (num / den : ℚ) < 2 ^ (log2Ratio num den + 1) := by
  have hden' : (0 : ℚ) < den := by exact_mod_cast Nat.pos_of_ne_zero hden
  have hcondition (e : Int) : den * 2 ^ e.toNat ≤ num * 2 ^ (-e).toNat ↔
      (2 : ℚ) ^ e ≤ num / den := by
    rw [le_div_iff₀ hden', ← Nat.cast_le (α := ℚ), ← Nat.cast_ofNat (R := ℚ),
      zpow_eq_div]
    push_cast
    rw [div_mul_eq_mul_div, div_le_iff₀ (by positivity), mul_comm (den : ℚ)]
  unfold log2Ratio
  dsimp only
  split
  · rename_i h
    exact ⟨(hcondition _).1 h, lt_two_zpow_sub hden⟩
  · rename_i h
    refine ⟨two_zpow_sub_le hnum hden, ?_⟩
    rw [sub_add_cancel]
    exact lt_of_not_ge fun hle ↦ h ((hcondition _).2 hle)

theorem log2Ratio_eq (hnum : num ≠ 0) (hden : den ≠ 0) {e : Int} (hlow : (2 : ℚ) ^ e ≤ num / den)
    (hhigh : (num / den : ℚ) < 2 ^ (e + 1)) : log2Ratio num den = e := by
  obtain ⟨hlow', hhigh'⟩ := log2Ratio_spec hnum hden
  have h₁ : e < log2Ratio num den + 1 :=
    (zpow_lt_zpow_iff_right₀ one_lt_two).1 (hlow.trans_lt hhigh')
  have h₂ : log2Ratio num den < e + 1 :=
    (zpow_lt_zpow_iff_right₀ one_lt_two).1 (hlow'.trans_lt hhigh)
  omega

end Logarithm

section HalfEven

variable {num den k : Nat} (hden : 0 < den)

include hden

theorem roundHalfEven_eq_of_le (hlow : 2 * (k * den) ≤ 2 * num + den)
    (hhigh : 2 * num ≤ 2 * (k * den) + den)
    (hodd : k % 2 = 1 → 2 * (k * den) < 2 * num + den ∧ 2 * num < 2 * (k * den) + den) :
    roundHalfEven num den = k := by
  have hdiv := Nat.div_add_mod num den
  have hmod := Nat.mod_lt num hden
  rw [Nat.mul_comm] at hdiv
  -- the quotient is the integer or the one below it
  have hquotient : num / den = k ∨ num / den + 1 = k := by
    have h₁ : num / den < k + 1 := by
      rw [Nat.div_lt_iff_lt_mul hden, Nat.add_mul]
      omega
    have h₂ : k < num / den + 2 := by
      by_contra h
      have := Nat.mul_le_mul_right den (Nat.le_of_not_lt h)
      rw [Nat.add_mul] at this
      omega
    omega
  unfold roundHalfEven
  dsimp only
  rcases hquotient with hk | hk
  · rw [hk] at hdiv ⊢
    split_ifs <;> omega
  · rw [← hk, Nat.add_mul] at hlow hhigh hodd
    split_ifs <;> omega

/-- A quotient within one half of an integer is rounded to it; at a distance of one half the integer
has to be even. -/
theorem roundHalfEven_eq (hlow : (k : ℚ) - 1 / 2 ≤ num / den) (hhigh : (num / den : ℚ) ≤ k + 1 / 2)
    (hodd : k % 2 = 1 → (k : ℚ) - 1 / 2 < num / den ∧ (num / den : ℚ) < k + 1 / 2) :
    roundHalfEven num den = k := by
  have hden' : (0 : ℚ) < den := by exact_mod_cast hden
  apply roundHalfEven_eq_of_le hden
  · rw [le_div_iff₀ hden'] at hlow
    have : (2 * (k * den) : ℚ) ≤ 2 * num + den := by linarith
    exact_mod_cast this
  · rw [div_le_iff₀ hden'] at hhigh
    have : (2 * num : ℚ) ≤ 2 * (k * den) + den := by linarith
    exact_mod_cast this
  · intro hk
    obtain ⟨h₁, h₂⟩ := hodd hk
    rw [lt_div_iff₀ hden'] at h₁
    rw [div_lt_iff₀ hden'] at h₂
    have h₁ : (2 * (k * den) : ℚ) < 2 * num + den := by linarith
    have h₂ : (2 * num : ℚ) < 2 * (k * den) + den := by linarith
    exact ⟨by exact_mod_cast h₁, by exact_mod_cast h₂⟩

end HalfEven

namespace Floating

variable {l : Layout} {num den : Nat}

theorem scaled_quotient (e : Int) (num den : Nat) :
    ((num * 2 ^ (-e).toNat : Nat) : ℚ) / (den * 2 ^ e.toNat : Nat) = num / den / (2 : ℚ) ^ e := by
  exact_mod_cast div_scaled (by norm_num : 0 < 2) e num den

theorem scaled_den_pos (hden : den ≠ 0) (e : Int) : 0 < den * 2 ^ e.toNat :=
  Nat.mul_pos (Nat.pos_of_ne_zero hden) (Nat.two_pow_pos _)

theorem isNaN_nearest (negative : Bool) (num den : Nat) :
    (nearest l negative num den).isNaN = false := by
  unfold nearest
  split <;> simp [isNaN, zero, ofSignificand]

/-- Rounding, where the exponent of the last place and the significand there are known. -/
theorem nearest_eq (negative : Bool) (hnum : num ≠ 0) (hden : den ≠ 0) {q : Int} {k : Nat}
    (hq : q = max l.leastExponent (log2Ratio num den - l.fractionBits))
    (hdown : ((k : ℚ) - 1 / 2) * 2 ^ q ≤ num / den) (hup : (num / den : ℚ) ≤ (k + 1 / 2) * 2 ^ q)
    (hodd : k % 2 = 1 →
      ((k : ℚ) - 1 / 2) * 2 ^ q < num / den ∧ (num / den : ℚ) < (k + 1 / 2) * 2 ^ q) :
    nearest l negative num den = ofSignificand l negative q k := by
  have hpos : (0 : ℚ) < 2 ^ q := by positivity
  have hround : roundHalfEven (num * 2 ^ (-q).toNat) (den * 2 ^ q.toNat) = k := by
    apply roundHalfEven_eq (scaled_den_pos hden q)
    · rwa [scaled_quotient, le_div_iff₀ hpos]
    · rwa [scaled_quotient, div_le_iff₀ hpos]
    · rwa [scaled_quotient, lt_div_iff₀ hpos, div_lt_iff₀ hpos]
  unfold nearest
  rw [if_neg hnum, ← hq]
  dsimp only
  rw [hround]

/-- Whether a rational number lies in the rounding interval of a positive finite number. -/
structure InInterval (x : Floating l) (r : ℚ) : Prop where
  low : ((x.significand : ℚ) - (if x.significand = 2 ^ l.fractionBits ∧ 1 < x.exponentField
    then 1 / 4 else 1 / 2)) * 2 ^ x.exponent ≤ r
  high : r ≤ ((x.significand : ℚ) + 1 / 2) * 2 ^ x.exponent
  odd : x.significand % 2 = 1 →
    ((x.significand : ℚ) - 1 / 2) * 2 ^ x.exponent < r ∧
      r < ((x.significand : ℚ) + 1 / 2) * 2 ^ x.exponent

theorem leastExponent_le_exponent (x : Floating l) : l.leastExponent ≤ x.exponent := by
  unfold exponent
  omega

/-- The number of a power of two, from the last place below. -/
theorem ofSignificand_pred (negative : Bool) {e : Int} (he : l.leastExponent < e) :
    ofSignificand l negative (e - 1) (2 ^ (l.fractionBits + 1)) =
      ofSignificand l negative e (2 ^ l.fractionBits) := by
  have hplaces : (e - l.leastExponent).toNat = (e - 1 - l.leastExponent).toNat + 1 := by omega
  unfold ofSignificand
  congr 2
  rw [hplaces, Nat.pow_succ, Nat.add_mul]
  omega

theorem two_pow_le_significand (x : Floating l) (hx : l.leastExponent < x.exponent) :
    2 ^ l.fractionBits ≤ x.significand ∧ 1 < x.exponentField := by
  have hfield : 1 < x.exponentField := by
    unfold exponent at hx
    omega
  refine ⟨?_, hfield⟩
  rw [significand, if_neg (by omega)]
  exact Nat.le_add_right _ _

section Interval

variable {x : Floating l} {r : ℚ}

theorem two_zpow_add_exponent (x : Floating l) (k : Nat) :
    (2 : ℚ) ^ (x.exponent + k) = (2 ^ k : Nat) * 2 ^ x.exponent := by
  rw [zpow_add₀ two_ne_zero, zpow_natCast, mul_comm]
  push_cast
  rfl

theorem two_zpow_sub_one (e : Int) : (2 : ℚ) ^ (e - 1) = 2 ^ e / 2 := by
  rw [zpow_sub₀ two_ne_zero, zpow_one]

theorem InInterval.half_le (h : x.InInterval r) :
    ((x.significand : ℚ) - 1 / 2) * 2 ^ x.exponent ≤ r := by
  refine le_trans ?_ h.low
  apply mul_le_mul_of_nonneg_right _ (by positivity)
  split_ifs <;> linarith

theorem InInterval.lt_two_zpow (h : x.InInterval r) :
    r < 2 ^ (x.exponent + l.fractionBits + 1) := by
  have hpos : (0 : ℚ) < 2 ^ x.exponent := by positivity
  have hbound : (x.significand : ℚ) + 1 ≤ (2 ^ (l.fractionBits + 1) : Nat) := by
    exact_mod_cast significand_lt x
  rw [add_assoc, ← Nat.cast_succ, two_zpow_add_exponent]
  calc
    r ≤ (x.significand + 1 / 2) * 2 ^ x.exponent := h.high
    _ < (2 ^ (l.fractionBits + 1) : Nat) * 2 ^ x.exponent :=
      mul_lt_mul_of_pos_right (by linarith) hpos

/-- Numbers of the interval below a power of two belong to the interval of that power. -/
theorem InInterval.significand_eq (h : x.InInterval r) (hexponent : l.leastExponent < x.exponent)
    (hbelow : r < 2 ^ (x.exponent + l.fractionBits)) : x.significand = 2 ^ l.fractionBits := by
  have hpos : (0 : ℚ) < 2 ^ x.exponent := by positivity
  by_contra hne
  have hle : ((2 ^ l.fractionBits : Nat) : ℚ) + 1 ≤ x.significand := by
    exact_mod_cast Nat.lt_of_le_of_ne (x.two_pow_le_significand hexponent).1 (Ne.symm hne)
  have hlow : ((2 ^ l.fractionBits : Nat) : ℚ) * 2 ^ x.exponent ≤ r :=
    le_trans (mul_le_mul_of_nonneg_right (by linarith) hpos.le) h.half_le
  rw [two_zpow_add_exponent] at hbelow
  exact absurd hbelow (not_lt.2 hlow)

variable (hnum : num ≠ 0) (hden : den ≠ 0) (hfinite : x.magnitude < l.infinity)
  (h : x.InInterval (num / den))

include hnum hden hfinite h

/-- Below a power of two the last place is the one below. -/
theorem InInterval.nearest_eq_of_below (hexponent : l.leastExponent < x.exponent)
    (hbelow : (num / den : ℚ) < 2 ^ (x.exponent + l.fractionBits)) :
    nearest l x.negative num den = x := by
  have hpos : (0 : ℚ) < 2 ^ x.exponent := by positivity
  have hpower := h.significand_eq hexponent hbelow
  have hlow := h.low
  rw [if_pos ⟨hpower, (x.two_pow_le_significand hexponent).2⟩, hpower] at hlow
  have hone : (1 : ℚ) ≤ (2 ^ l.fractionBits : Nat) := by exact_mod_cast Nat.two_pow_pos _
  have hlog : log2Ratio num den = x.exponent + l.fractionBits - 1 := by
    apply log2Ratio_eq hnum hden
    · rw [two_zpow_sub_one, two_zpow_add_exponent]
      calc
        ((2 ^ l.fractionBits : Nat) : ℚ) * 2 ^ x.exponent / 2 =
            (2 ^ l.fractionBits : Nat) / 2 * 2 ^ x.exponent := by ring
        _ ≤ ((2 ^ l.fractionBits : Nat) - 1 / 4) * 2 ^ x.exponent :=
          mul_le_mul_of_nonneg_right (by linarith) hpos.le
        _ ≤ num / den := hlow
    · rwa [sub_add_cancel]
  have hdouble : ((2 ^ (l.fractionBits + 1) : Nat) : ℚ) = 2 * (2 ^ l.fractionBits : Nat) := by
    rw [Nat.pow_succ]
    push_cast
    ring
  rw [two_zpow_add_exponent] at hbelow
  rw [Floating.nearest_eq (q := x.exponent - 1) (k := 2 ^ (l.fractionBits + 1)) x.negative hnum
    hden, ofSignificand_pred _ hexponent, ← hpower]
  · exact ofSignificand_parts x hfinite
  · omega
  · rw [two_zpow_sub_one, hdouble]
    linarith
  · rw [two_zpow_sub_one, hdouble]
    linarith
  · intro hodd
    rw [Nat.pow_succ] at hodd
    omega

/-- A number of the rounding interval is rounded to the number that the interval belongs to. -/
theorem InInterval.nearest_eq : nearest l x.negative num den = x := by
  by_cases hbelow : (num / den : ℚ) < 2 ^ (x.exponent + l.fractionBits) ∧
      l.leastExponent < x.exponent
  · exact h.nearest_eq_of_below hnum hden hfinite hbelow.2 hbelow.1
  · obtain ⟨hlog, hlog'⟩ := log2Ratio_spec hnum hden
    have hlt : log2Ratio num den < x.exponent + l.fractionBits + 1 :=
      (zpow_lt_zpow_iff_right₀ (one_lt_two (α := ℚ))).1 (hlog.trans_lt h.lt_two_zpow)
    have hleast := x.leastExponent_le_exponent
    have hq : x.exponent = max l.leastExponent (log2Ratio num den - l.fractionBits) := by
      by_cases hexponent : l.leastExponent < x.exponent
      · have hge : (2 : ℚ) ^ (x.exponent + l.fractionBits) ≤ num / den :=
          le_of_not_gt fun hlt ↦ hbelow ⟨hlt, hexponent⟩
        have := (zpow_lt_zpow_iff_right₀ (one_lt_two (α := ℚ))).1 (hge.trans_lt hlog')
        omega
      · omega
    rw [Floating.nearest_eq x.negative hnum hden hq h.half_le h.high h.odd]
    exact ofSignificand_parts x hfinite

end Interval

end Floating

end RecordQuery
