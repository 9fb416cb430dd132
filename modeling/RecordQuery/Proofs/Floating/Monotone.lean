import RecordQuery.Proofs.Floating.Rounding

/-!
# Rounding keeps the order

A rational number is never rounded to a greater number than one above it. So the nearest doubles of
two integers are ordered as the integers are, unless the integers share their nearest double.
-/

namespace RecordQuery

-- Powers of numbers are those of the core library.
attribute [local instance (1100)] instPowNat

section HalfEven

variable {num den num' den' k : Nat}

/-- A quotient lies within one half of the integer that it is rounded to, and within less if that
integer is odd. -/
theorem roundHalfEven_bounds (num : Nat) (hden : 0 < den) :
    (roundHalfEven num den : ℚ) - 1 / 2 ≤ num / den ∧
      (num / den : ℚ) ≤ roundHalfEven num den + 1 / 2 ∧
      (roundHalfEven num den % 2 = 1 →
        (roundHalfEven num den : ℚ) - 1 / 2 < num / den ∧
          (num / den : ℚ) < roundHalfEven num den + 1 / 2) := by
  have hden' : (0 : ℚ) < den := by exact_mod_cast hden
  have hdiv := Nat.div_add_mod num den
  have hmod := Nat.mod_lt num hden
  have hnext : (num / den + 1) * den = num / den * den + den := Nat.succ_mul _ _
  rw [Nat.mul_comm] at hdiv
  have hbounds : 2 * (roundHalfEven num den * den) ≤ 2 * num + den ∧
      2 * num ≤ 2 * (roundHalfEven num den * den) + den ∧
      (roundHalfEven num den % 2 = 1 →
        2 * (roundHalfEven num den * den) < 2 * num + den ∧
          2 * num < 2 * (roundHalfEven num den * den) + den) := by
    unfold roundHalfEven
    dsimp only
    split_ifs <;> omega
  generalize roundHalfEven num den = k at hbounds
  obtain ⟨hlow, hhigh, hodd⟩ := hbounds
  refine ⟨?_, ?_, fun hk ↦ ⟨?_, ?_⟩⟩
  · have : (2 * (k * den) : ℚ) ≤ 2 * num + den := by exact_mod_cast hlow
    rw [le_div_iff₀ hden']
    linarith
  · have : (2 * num : ℚ) ≤ 2 * (k * den) + den := by exact_mod_cast hhigh
    rw [div_le_iff₀ hden']
    linarith
  · have : (2 * (k * den) : ℚ) < 2 * num + den := by exact_mod_cast (hodd hk).1
    rw [lt_div_iff₀ hden']
    linarith
  · have : (2 * num : ℚ) < 2 * (k * den) + den := by exact_mod_cast (hodd hk).2
    rw [div_lt_iff₀ hden']
    linarith

/-- Rounding keeps the order of quotients, ties to even included. -/
theorem roundHalfEven_mono (hden : 0 < den) (hden' : 0 < den')
    (h : (num / den : ℚ) ≤ num' / den') : roundHalfEven num den ≤ roundHalfEven num' den' := by
  obtain ⟨hlow, -, hodd⟩ := roundHalfEven_bounds num hden
  obtain ⟨-, hhigh, hodd'⟩ := roundHalfEven_bounds num' hden'
  generalize roundHalfEven num den = k at *
  generalize roundHalfEven num' den' = k' at *
  by_contra hlt
  have hsucc : (k' : ℚ) + 1 ≤ k := by exact_mod_cast Nat.lt_of_not_le hlt
  -- both quotients lie halfway between the two integers, of which one is odd
  have hmiddle : (k : ℚ) = k' + 1 := by linarith
  have hparity : k % 2 = 1 ∨ k' % 2 = 1 := by
    have : k = k' + 1 := by exact_mod_cast hmiddle
    omega
  rcases hparity with hk | hk
  · have := (hodd hk).1
    linarith
  · have := (hodd' hk).2
    linarith

theorem le_roundHalfEven (hden : 0 < den) (h : (k : ℚ) ≤ num / den) :
    k ≤ roundHalfEven num den := by
  have hmono : roundHalfEven k 1 ≤ roundHalfEven num den :=
    roundHalfEven_mono Nat.one_pos hden (by simpa using h)
  rwa [← Nat.mul_one k, roundHalfEven_mul k Nat.one_pos] at hmono

theorem roundHalfEven_le (hden : 0 < den) (h : (num / den : ℚ) ≤ k) :
    roundHalfEven num den ≤ k := by
  have hmono : roundHalfEven num den ≤ roundHalfEven k 1 :=
    roundHalfEven_mono hden Nat.one_pos (by simpa using h)
  rwa [← Nat.mul_one k, roundHalfEven_mul k Nat.one_pos] at hmono

end HalfEven

theorem log2Ratio_mono {num den num' den' : Nat} (hnum : num ≠ 0) (hden : den ≠ 0)
    (hnum' : num' ≠ 0) (hden' : den' ≠ 0) (h : (num / den : ℚ) ≤ num' / den') :
    log2Ratio num den ≤ log2Ratio num' den' := by
  have hlow := (log2Ratio_spec hnum hden).1
  have hhigh := (log2Ratio_spec hnum' hden').2
  have hlt : log2Ratio num den < log2Ratio num' den' + 1 :=
    (zpow_lt_zpow_iff_right₀ (one_lt_two (α := ℚ))).1 ((hlow.trans h).trans_lt hhigh)
  omega

namespace Floating

variable {l : Layout}

section Nearest

variable {num den num' den' : Nat}

/-- The exponent of the last place of the number nearest to a quotient. -/
def lastPlace (l : Layout) (num den : Nat) : Int :=
  max l.leastExponent (log2Ratio num den - l.fractionBits)

/-- The significand of the number nearest to a quotient, before the place that a carry may add. -/
def rounded (l : Layout) (num den : Nat) : Nat :=
  roundHalfEven (num * 2 ^ (-lastPlace l num den).toNat) (den * 2 ^ (lastPlace l num den).toNat)

theorem magnitude_nearest (negative : Bool) (hnum : num ≠ 0) :
    (nearest l negative num den).magnitude =
      min ((lastPlace l num den - l.leastExponent).toNat * 2 ^ l.fractionBits + rounded l num den)
        l.infinity := by
  unfold nearest
  rw [if_neg hnum]
  rfl

theorem negative_nearest (negative : Bool) (num den : Nat) :
    (nearest l negative num den).negative = negative := by
  unfold nearest
  split <;> rfl

theorem rounded_le (hnum : num ≠ 0) (hden : den ≠ 0) :
    rounded l num den ≤ 2 ^ (l.fractionBits + 1) := by
  have hlt := (log2Ratio_spec hnum hden).2
  apply roundHalfEven_le (scaled_den_pos hden _)
  rw [scaled_quotient, div_le_iff₀ (by positivity)]
  calc
    (num / den : ℚ) ≤ 2 ^ (log2Ratio num den + 1) := hlt.le
    _ ≤ 2 ^ ((l.fractionBits + 1 : Nat) + lastPlace l num den) := by
      apply zpow_le_zpow_right₀ one_le_two
      unfold lastPlace
      omega
    _ = (2 ^ (l.fractionBits + 1) : Nat) * 2 ^ lastPlace l num den := by
      rw [zpow_add₀ two_ne_zero, zpow_natCast]
      push_cast
      rfl

/-- Above the least exponent the significand has its leading bit. -/
theorem le_rounded (hnum : num ≠ 0) (hden : den ≠ 0) (h : l.leastExponent < lastPlace l num den) :
    2 ^ l.fractionBits ≤ rounded l num den := by
  have hle := (log2Ratio_spec hnum hden).1
  apply le_roundHalfEven (scaled_den_pos hden _)
  rw [scaled_quotient, le_div_iff₀ (by positivity)]
  calc
    ((2 ^ l.fractionBits : Nat) : ℚ) * 2 ^ lastPlace l num den =
        2 ^ ((l.fractionBits : Nat) + lastPlace l num den) := by
      rw [zpow_add₀ two_ne_zero, zpow_natCast]
      push_cast
      rfl
    _ = 2 ^ log2Ratio num den := by
      congr 1
      unfold lastPlace at h ⊢
      omega
    _ ≤ num / den := hle

/-- Rounding keeps the order of magnitudes, whatever the signs. -/
theorem magnitude_nearest_mono (negative negative' : Bool) (hden : den ≠ 0) (hden' : den' ≠ 0)
    (h : (num / den : ℚ) ≤ num' / den') :
    (nearest l negative num den).magnitude ≤ (nearest l negative' num' den').magnitude := by
  by_cases hnum : num = 0
  · simp [nearest, hnum, zero]
  have hpos : (0 : ℚ) < num / den :=
    div_pos (by exact_mod_cast Nat.pos_of_ne_zero hnum)
      (by exact_mod_cast Nat.pos_of_ne_zero hden)
  have hnum' : num' ≠ 0 := by
    rintro rfl
    rw [Nat.cast_zero, zero_div] at h
    exact absurd hpos (not_lt.2 h)
  have hplace : lastPlace l num den ≤ lastPlace l num' den' := by
    have := log2Ratio_mono hnum hden hnum' hden' h
    unfold lastPlace
    omega
  rw [magnitude_nearest negative hnum, magnitude_nearest negative' hnum']
  refine min_le_min_right _ ?_
  rcases hplace.eq_or_lt with heq | hlt
  · have hrounded : rounded l num den ≤ rounded l num' den' := by
      apply roundHalfEven_mono (scaled_den_pos hden _) (scaled_den_pos hden' _)
      rw [scaled_quotient, scaled_quotient, heq]
      exact div_le_div_of_nonneg_right h (by positivity)
    rw [heq]
    omega
  · -- the places between make up for what the significand loses
    have hleast : l.leastExponent ≤ lastPlace l num den := le_max_left _ _
    have hlow := rounded_le (l := l) hnum hden
    have hhigh := le_rounded hnum' hden' (hleast.trans_lt hlt)
    have hplaces : (lastPlace l num den - l.leastExponent).toNat + 1 ≤
        (lastPlace l num' den' - l.leastExponent).toNat := by omega
    have hmul := Nat.mul_le_mul_right (2 ^ l.fractionBits) hplaces
    rw [Nat.add_mul, Nat.one_mul] at hmul
    rw [Nat.pow_succ] at hlow
    omega

end Nearest

section Integers

variable {m n : Int}

theorem ofInt_eq_nearest (l : Layout) (n : Int) :
    ofInt l n = nearest l (decide (n < 0)) n.natAbs 1 := by
  simp [ofInt, nearestScaled]

theorem isNaN_ofInt (l : Layout) (n : Int) : (ofInt l n).isNaN = false := by
  rw [ofInt_eq_nearest, isNaN_nearest]

theorem key_ofInt (l : Layout) (n : Int) :
    (ofInt l n).key = if n < 0 then -((nearest l false n.natAbs 1).magnitude : Int)
      else (nearest l false n.natAbs 1).magnitude := by
  have hmagnitude : (nearest l (decide (n < 0)) n.natAbs 1).magnitude =
      (nearest l false n.natAbs 1).magnitude :=
    le_antisymm (magnitude_nearest_mono _ _ one_ne_zero one_ne_zero le_rfl)
      (magnitude_nearest_mono _ _ one_ne_zero one_ne_zero le_rfl)
  rw [ofInt_eq_nearest, key, negative_nearest, hmagnitude]
  simp only [decide_eq_true_eq]

/-- The nearest number of a greater integer is at least as great. -/
theorem key_ofInt_mono (h : m ≤ n) : (ofInt l m).key ≤ (ofInt l n).key := by
  have hmono {a b : Nat} (hab : a ≤ b) :
      (nearest l false a 1).magnitude ≤ (nearest l false b 1).magnitude := by
    apply magnitude_nearest_mono _ _ one_ne_zero one_ne_zero
    exact div_le_div_of_nonneg_right (by exact_mod_cast hab) (by norm_num)
  rw [key_ofInt, key_ofInt]
  by_cases hn : n < 0
  · have := hmono (show n.natAbs ≤ m.natAbs by omega)
    rw [if_pos hn, if_pos (by omega)]
    omega
  · by_cases hm : m < 0
    · rw [if_neg hn, if_pos hm]
      omega
    · have := hmono (show m.natAbs ≤ n.natAbs by omega)
      rw [if_neg hn, if_neg hm]
      omega

/-- Numbers other than zero are told apart by their keys. -/
theorem eq_of_key_eq {x y : Floating l} (h : x.key = y.key) (hx : x.key ≠ 0) : x = y := by
  obtain ⟨negative, magnitude, hmagnitude⟩ := x
  obtain ⟨negative', magnitude', hmagnitude'⟩ := y
  simp only [key] at h hx
  rw [mk.injEq]
  cases negative <;> cases negative' <;> simp at h hx ⊢ <;> omega

/-- The nearest double of an integer other than zero has its sign. -/
theorem key_ofInt_sign (n : Int) :
    (0 < n → 0 < (ofInt .binary64 n).key) ∧ (n < 0 → (ofInt .binary64 n).key < 0) := by
  have hone : 0 < (ofInt .binary64 1).key := by decide +kernel
  have hminus : (ofInt .binary64 (-1)).key < 0 := by decide +kernel
  constructor
  · intro hn
    exact hone.trans_le (key_ofInt_mono (by omega))
  · intro hn
    exact (key_ofInt_mono (by omega)).trans_lt hminus

/-- Integers that round to floats of one key round to one float, since no integer rounds to a
negative zero. -/
theorem ofInt_eq_iff_key_eq :
    ofInt .binary64 m = ofInt .binary64 n ↔ (ofInt .binary64 m).key = (ofInt .binary64 n).key := by
  constructor
  · intro h
    rw [h]
  · intro h
    obtain ⟨hm, hm'⟩ := key_ofInt_sign m
    obtain ⟨hn, hn'⟩ := key_ofInt_sign n
    by_cases hzero : (ofInt .binary64 m).key = 0
    · obtain rfl : m = n := by omega
      rfl
    · exact eq_of_key_eq h hzero

/-- The nearest doubles of two integers are ordered as the integers are, unless they are the same
double. -/
theorem compareInts_key_ofInt (m n : Int) :
    compareInts (ofInt .binary64 m).key (ofInt .binary64 n).key =
      if ofInt .binary64 m = ofInt .binary64 n then .eq else compareInts m n := by
  simp only [ofInt_eq_iff_key_eq]
  have hle (h : m ≤ n) : (ofInt .binary64 m).key ≤ (ofInt .binary64 n).key := key_ofInt_mono h
  have hge (h : n ≤ m) : (ofInt .binary64 n).key ≤ (ofInt .binary64 m).key := key_ofInt_mono h
  unfold compareInts
  split_ifs <;> first | rfl | omega

/-- Integers on both sides of two others with different nearest doubles do not share theirs. -/
theorem ofInt_ne_of_between (low high : Int)
    (h : (ofInt .binary64 low).key < (ofInt .binary64 high).key) (hm : m ≤ low) (hn : high ≤ n) :
    ofInt .binary64 m ≠ ofInt .binary64 n := by
  rw [ne_eq, ofInt_eq_iff_key_eq]
  have hlow := key_ofInt_mono (l := .binary64) hm
  have hhigh := key_ofInt_mono (l := .binary64) hn
  omega

end Integers

end Floating

end RecordQuery
