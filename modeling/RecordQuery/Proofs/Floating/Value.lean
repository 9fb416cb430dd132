import RecordQuery.Proofs.Floating.Rounding

/-!
# The rational value of a number

The value of a finite number is its significand at its last place. A number is integral if that
value is an integer. Integers of at most 53 bits are doubles, so their nearest doubles have their
values.
-/

namespace RecordQuery.Floating

-- Powers of numbers are those of the core library.
attribute [local instance (1100)] instPowNat

variable {l : Layout} {x : Floating l}

/-- Whether a number is neither infinite nor not a number. -/
def IsFinite (x : Floating l) : Prop :=
  x.magnitude < l.infinity

instance : Decidable x.IsFinite :=
  inferInstanceAs (Decidable (x.magnitude < l.infinity))

/-- The value of a finite number. -/
def toRat (x : Floating l) : ℚ :=
  if x.negative then -(x.significand * 2 ^ x.exponent) else x.significand * 2 ^ x.exponent

/-- The magnitude of an integral number, without its sign. -/
def naturalMagnitude? (x : Floating l) : Option Nat :=
  match x.exponent with
  | .ofNat e => some (x.significand * 2 ^ e)
  | .negSucc e =>
    if x.significand % 2 ^ (e + 1) = 0 then some (x.significand / 2 ^ (e + 1)) else none

theorem integral?_eq (hx : x.IsFinite) :
    x.integral? =
      x.naturalMagnitude?.map fun k : Nat ↦ if x.negative then -(k : Int) else (k : Int) := by
  unfold integral?
  rw [if_neg (Nat.not_le.2 hx)]
  change (x.naturalMagnitude?.bind fun k ↦ some (k : Int)).map _ = _
  cases x.naturalMagnitude? <;> rfl

/-- The magnitude of a float is a natural number exactly if significand and exponent multiply to
that number. -/
theorem naturalMagnitude?_eq_some_iff {k : Nat} :
    x.naturalMagnitude? = some k ↔ (x.significand : ℚ) * 2 ^ x.exponent = k := by
  unfold naturalMagnitude?
  cases x.exponent with
  | ofNat e =>
    rw [Option.some.injEq, Int.ofNat_eq_natCast, zpow_natCast]
    constructor
    · rintro rfl
      push_cast
      rfl
    · intro h
      exact_mod_cast h
  | negSucc e =>
    have hpos : 0 < 2 ^ (e + 1) := Nat.two_pow_pos _
    have hpower : ((2 ^ (e + 1) : Nat) : ℚ) = 2 ^ (e + 1) := by push_cast; rfl
    have hvalue : (x.significand : ℚ) * 2 ^ Int.negSucc e = k ↔
        x.significand = k * 2 ^ (e + 1) := by
      rw [zpow_negSucc, ← div_eq_mul_inv, div_eq_iff (by positivity), ← hpower]
      exact_mod_cast Iff.rfl
    rw [hvalue]
    dsimp only
    split
    · rename_i hmod
      rw [Option.some.injEq]
      exact Nat.div_eq_iff_eq_mul_left hpos (Nat.dvd_of_mod_eq_zero hmod)
    · rename_i hmod
      constructor
      · exact nofun
      · intro h
        exact absurd (by rw [h, Nat.mul_mod_left]) hmod

theorem isFinite_of_integral? {n : Int} (h : x.integral? = some n) : x.IsFinite := by
  unfold integral? at h
  split at h
  · exact nomatch h
  · rename_i hx
    exact Nat.lt_of_not_le hx

/-- A number is integral if its value is an integer. -/
theorem integral?_eq_some_iff {n : Int} :
    x.integral? = some n ↔ x.IsFinite ∧ x.toRat = n := by
  constructor
  · intro h
    have hx := isFinite_of_integral? h
    rw [integral?_eq hx, Option.map_eq_some_iff] at h
    obtain ⟨k, hk, rfl⟩ := h
    refine ⟨hx, ?_⟩
    rw [toRat, naturalMagnitude?_eq_some_iff.1 hk]
    split <;> simp
  · rintro ⟨hx, hvalue⟩
    have hpos : (0 : ℚ) ≤ x.significand * 2 ^ x.exponent := by positivity
    have hmagnitude : (x.significand : ℚ) * 2 ^ x.exponent = n.natAbs ∧
        (if x.negative then -(n.natAbs : Int) else (n.natAbs : Int)) = n := by
      rw [toRat] at hvalue
      cases hsign : x.negative with
      | true =>
        rw [hsign, if_pos rfl] at hvalue
        have hn : n ≤ 0 := by
          have : (n : ℚ) ≤ 0 := by linarith
          exact_mod_cast this
        rw [Nat.cast_natAbs, abs_of_nonpos hn, Int.cast_neg, if_pos rfl]
        exact ⟨by linarith, by omega⟩
      | false =>
        rw [hsign, if_neg Bool.false_ne_true] at hvalue
        have hn : 0 ≤ n := by
          have : (0 : ℚ) ≤ n := by linarith
          exact_mod_cast this
        rw [Nat.cast_natAbs, abs_of_nonneg hn, if_neg Bool.false_ne_true]
        exact ⟨hvalue, by omega⟩
    rw [integral?_eq hx, Option.map_eq_some_iff]
    exact ⟨n.natAbs, naturalMagnitude?_eq_some_iff.2 hmagnitude.1, hmagnitude.2⟩

section Exact

variable {q : Int} {k : Nat}

/-- A number whose significand has its leading bit is given by its parts. -/
theorem parts_ofSignificand (negative : Bool) (hq : l.leastExponent ≤ q)
    (hlow : 2 ^ l.fractionBits ≤ k) (hhigh : k < 2 ^ (l.fractionBits + 1))
    (hfinite : (q - l.leastExponent).toNat * 2 ^ l.fractionBits + k < l.infinity) :
    (ofSignificand l negative q k).IsFinite ∧ (ofSignificand l negative q k).significand = k ∧
      (ofSignificand l negative q k).exponent = q := by
  have hmagnitude : (ofSignificand l negative q k).magnitude =
      (q - l.leastExponent).toNat * 2 ^ l.fractionBits + k := Nat.min_eq_left hfinite.le
  have hpos : 0 < 2 ^ l.fractionBits := Nat.two_pow_pos _
  obtain ⟨r, rfl⟩ := Nat.exists_eq_add_of_le hlow
  rw [Nat.pow_succ] at hhigh
  have hr : r < 2 ^ l.fractionBits := by omega
  have hparts : (ofSignificand l negative q (2 ^ l.fractionBits + r)).magnitude =
      r + 2 ^ l.fractionBits * ((q - l.leastExponent).toNat + 1) := by
    rw [hmagnitude, Nat.mul_comm, Nat.mul_add, Nat.mul_one]
    omega
  have hfield : (ofSignificand l negative q (2 ^ l.fractionBits + r)).exponentField =
      (q - l.leastExponent).toNat + 1 := by
    rw [exponentField, hparts, Nat.add_mul_div_left _ _ hpos, Nat.div_eq_of_lt hr, Nat.zero_add]
  refine ⟨?_, ?_, ?_⟩
  · rw [IsFinite, hmagnitude]
    exact hfinite
  · rw [significand, if_neg (by omega), hparts, Nat.add_mul_mod_self_left, Nat.mod_eq_of_lt hr]
  · rw [exponent, hfield]
    omega

/-- The significand and the last place of the nearest double of an integer of at most 53 bits. -/
theorem exists_parts_of_le {m : Nat} (hm : m ≠ 0) (hle : m ≤ 2 ^ 53) :
    ∃ (q : Int) (k : Nat), q = max (-1074) ((Nat.log2 m : Int) + 0 - 52) ∧
      k * 2 ^ (q - 0).toNat = m * 2 ^ (0 - q).toNat ∧ 2 ^ 52 ≤ k ∧ k < 2 ^ 53 ∧ q ≤ 1 := by
  rcases hle.lt_or_eq with hlt | rfl
  · have hlog : Nat.log2 m < 53 := (Nat.log2_lt hm).2 hlt
    have hlow := Nat.mul_le_mul_right (2 ^ (52 - Nat.log2 m)) (Nat.log2_self_le hm)
    have hhigh := Nat.mul_lt_mul_of_pos_right (Nat.lt_log2_self (n := m))
      (Nat.two_pow_pos (52 - Nat.log2 m))
    rw [← Nat.pow_add, show Nat.log2 m + (52 - Nat.log2 m) = 52 by omega] at hlow
    rw [← Nat.pow_add, show Nat.log2 m + 1 + (52 - Nat.log2 m) = 53 by omega] at hhigh
    refine ⟨Nat.log2 m - 52, m * 2 ^ (52 - Nat.log2 m), by omega, ?_, hlow, hhigh, by omega⟩
    rw [show ((Nat.log2 m : Int) - 52 - 0).toNat = 0 by omega,
      show (0 - ((Nat.log2 m : Int) - 52)).toNat = 52 - Nat.log2 m by omega, Nat.pow_zero,
      Nat.mul_one]
  · exact ⟨1, 2 ^ 52, by rw [Nat.log2_two_pow]; decide, by decide, le_rfl, by decide, le_rfl⟩

/-- An integer of at most 53 bits is the value of its nearest double. -/
theorem toRat_ofInt {n : Int} (hn : n.natAbs ≤ 2 ^ 53) :
    (ofInt .binary64 n).IsFinite ∧ (ofInt .binary64 n).toRat = n := by
  by_cases hzero : n = 0
  · subst hzero
    exact ⟨by decide, by decide +kernel⟩
  obtain ⟨q, k, hq, hk, hlow, hhigh, hle⟩ := exists_parts_of_le (Int.natAbs_ne_zero.2 hzero) hn
  have hleast : Layout.binary64.leastExponent = -1074 := by decide
  have hbits : Layout.binary64.fractionBits = 52 := rfl
  have hinfinity : Layout.binary64.infinity = 2047 * 2 ^ 52 := by decide
  have hofInt : ofInt .binary64 n = ofSignificand .binary64 (decide (n < 0)) q k := by
    apply nearestScaled_eq _ (Int.natAbs_ne_zero.2 hzero) _ hk
    rw [hleast, hbits]
    exact hq
  obtain ⟨hfinite, hsignificand, hexponent⟩ := parts_ofSignificand (l := .binary64) (q := q) (k := k)
    (decide (n < 0)) (by omega) hlow hhigh (by rw [hleast, hbits, hinfinity]; omega)
  have hvalue : (k : ℚ) * 2 ^ q = n.natAbs := by
    have hpower := zpow_eq_div 2 q
    rw [Nat.cast_ofNat] at hpower
    rw [Int.sub_zero, Int.zero_sub] at hk
    rw [hpower, mul_div_assoc', div_eq_iff (by positivity)]
    exact_mod_cast hk
  rw [hofInt]
  refine ⟨hfinite, ?_⟩
  rw [toRat, hsignificand, hexponent, hvalue]
  change (if decide (n < 0) = true then -((n.natAbs : Nat) : ℚ) else (n.natAbs : Nat)) = n
  rw [Nat.cast_natAbs]
  by_cases hneg : n < 0
  · rw [if_pos (decide_eq_true hneg), abs_of_neg hneg]
    push_cast
    ring
  · rw [if_neg (by simpa using hneg), abs_of_nonneg (not_lt.1 hneg)]

/-- Integers of at most 53 bits do not share their nearest doubles. -/
theorem ofInt_injOn {m n : Int} (hm : m.natAbs ≤ 2 ^ 53) (hn : n.natAbs ≤ 2 ^ 53)
    (h : ofInt .binary64 m = ofInt .binary64 n) : m = n := by
  have hvalue := (toRat_ofInt hm).2
  rw [h, (toRat_ofInt hn).2] at hvalue
  exact_mod_cast hvalue.symm

end Exact

end RecordQuery.Floating
