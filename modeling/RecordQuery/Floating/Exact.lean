import RecordQuery.Floating.Rounding

/-!
# Exact conversions

A number that a format can represent is its own nearest number. So widening a single precision
number changes nothing that narrowing would have to undo: the double of a single precision number,
narrowed and widened again, is the same double.
-/

namespace RecordQuery

-- Powers of numbers are those of the core library.
attribute [local instance (1100)] instPowNat

theorem roundHalfEven_mul (k : Nat) {den : Nat} (h : 0 < den) :
    roundHalfEven (k * den) den = k := by
  simp [roundHalfEven, Nat.mul_div_cancel _ h, Nat.mul_mod_left, h]

theorem log2_mul_two_pow {m : Nat} (hm : m ≠ 0) (k : Nat) :
    Nat.log2 (m * 2 ^ k) = Nat.log2 m + k := by
  have hp : 0 < 2 ^ k := Nat.two_pow_pos k
  have h1 := Nat.log2_self_le hm
  have h2 := Nat.lt_log2_self (n := m)
  refine (Nat.log2_eq_iff (Nat.mul_ne_zero hm (Nat.ne_of_gt hp))).2 ⟨?_, ?_⟩
  · rw [Nat.pow_add]
    exact Nat.mul_le_mul_right _ h1
  · rw [show m.log2 + k + 1 = (m.log2 + 1) + k by omega, Nat.pow_add]
    exact Nat.mul_lt_mul_of_pos_right h2 hp

/-- The binary logarithm of `m * 2 ^ e` is that of `m`, moved by the exponent. -/
theorem log2Ratio_scaled {m : Nat} (hm : m ≠ 0) (e : Int) :
    log2Ratio (m * 2 ^ e.toNat) (2 ^ (-e).toNat) = Nat.log2 m + e := by
  have he : ((Nat.log2 m + e.toNat : Nat) : Int) - ((-e).toNat : Nat) = Nat.log2 m + e := by omega
  have hr : 2 ^ (-e).toNat * 2 ^ ((Nat.log2 m : Int) + e).toNat ≤
      m * 2 ^ e.toNat * 2 ^ (-((Nat.log2 m : Int) + e)).toNat := by
    rw [← Nat.pow_add, Nat.mul_assoc, ← Nat.pow_add,
      show (-e).toNat + ((Nat.log2 m : Int) + e).toNat =
        Nat.log2 m + (e.toNat + (-((Nat.log2 m : Int) + e)).toNat) by omega, Nat.pow_add]
    exact Nat.mul_le_mul_right _ (Nat.log2_self_le hm)
  simp only [log2Ratio, log2_mul_two_pow hm, Nat.log2_two_pow, he, if_pos hr]

namespace Floating

/-- A scaled integer whose value is a whole number of last places is represented exactly. -/
theorem nearestScaled_eq {l : Layout} {m k : Nat} {e q : Int} (negative : Bool) (hm : m ≠ 0)
    (hq : q = max l.leastExponent (Nat.log2 m + e - l.fractionBits))
    (hk : k * 2 ^ (q - e).toNat = m * 2 ^ (e - q).toNat) :
    nearestScaled l negative m e = ofSignificand l negative q k := by
  have hnum : m * 2 ^ e.toNat ≠ 0 := Nat.mul_ne_zero hm (Nat.ne_of_gt (Nat.two_pow_pos _))
  have hround : roundHalfEven (m * 2 ^ e.toNat * 2 ^ (-q).toNat)
      (2 ^ (-e).toNat * 2 ^ q.toNat) = k := by
    have hnum' : m * 2 ^ e.toNat * 2 ^ (-q).toNat =
        k * (2 ^ (-e).toNat * 2 ^ q.toNat) := by
      let c := (-e).toNat + q.toNat - (q - e).toNat
      have h1 : (-e).toNat + q.toNat = (q - e).toNat + c := by omega
      have h2 : e.toNat + (-q).toNat = (e - q).toNat + c := by omega
      rw [Nat.mul_assoc, ← Nat.pow_add, ← Nat.pow_add, h1, h2, Nat.pow_add, Nat.pow_add,
        ← Nat.mul_assoc, ← Nat.mul_assoc, hk]
    rw [hnum']
    exact roundHalfEven_mul k (Nat.mul_pos (Nat.two_pow_pos _) (Nat.two_pow_pos _))
  simp only [nearestScaled, nearest, if_neg hnum, log2Ratio_scaled hm, ← hq, hround]

/-- A significand has one bit more than the fraction of its layout. -/
theorem significand_lt {l : Layout} (x : Floating l) :
    x.significand < 2 ^ (l.fractionBits + 1) := by
  have hp : 0 < 2 ^ l.fractionBits := Nat.two_pow_pos _
  have hmod := Nat.mod_lt x.magnitude hp
  unfold significand
  split
  · rename_i h
    have := (Nat.div_eq_zero_iff_lt hp).1 h
    rw [Nat.pow_succ]
    omega
  · rw [Nat.pow_succ]
    omega

/-- The exponent of a non-zero number is the one that rounding chooses for it. -/
theorem exponent_eq_max {l : Layout} (x : Floating l) (hx : x.significand ≠ 0) :
    x.exponent = max l.leastExponent (Nat.log2 x.significand + x.exponent - l.fractionBits) := by
  have hlt := significand_lt x
  have hlog : Nat.log2 x.significand < l.fractionBits + 1 := (Nat.log2_lt hx).2 hlt
  by_cases h : x.exponentField = 0
  · have he : x.exponent = l.leastExponent := by simp [exponent, h]
    omega
  · have hlog' : l.fractionBits ≤ Nat.log2 x.significand := by
      refine (Nat.le_log2 hx).2 ?_
      simp only [significand, if_neg h]
      exact Nat.le_add_right _ _
    have he : l.leastExponent ≤ x.exponent := by
      simp only [exponent]
      omega
    omega

/-- A finite number is given back by its parts. -/
theorem ofSignificand_parts {l : Layout} (x : Floating l) (hx : x.magnitude < l.infinity) :
    ofSignificand l x.negative x.exponent x.significand = x := by
  have hp : 0 < 2 ^ l.fractionBits := Nat.two_pow_pos _
  have hdiv := Nat.div_add_mod x.magnitude (2 ^ l.fractionBits)
  have hm : (x.exponent - l.leastExponent).toNat * 2 ^ l.fractionBits + x.significand =
      x.magnitude := by
    have he : (x.exponent - l.leastExponent).toNat = x.exponentField - 1 := by
      simp only [exponent]
      omega
    rw [he]
    unfold significand
    split
    · rename_i h
      simp [h]
    · rename_i h
      rw [Nat.sub_mul, Nat.one_mul, Nat.mul_comm]
      have : 2 ^ l.fractionBits ≤ 2 ^ l.fractionBits * x.exponentField :=
        Nat.le_mul_of_pos_right _ (Nat.pos_of_ne_zero h)
      simp only [exponentField] at *
      omega
  obtain ⟨s, m, h⟩ := x
  simp only [ofSignificand, Floating.mk.injEq, true_and] at *
  rw [hm, Nat.min_eq_left (Nat.le_of_lt hx)]

/-- The double of a finite single precision number other than zero has the same value. -/
theorem parts_convert_double (x : Single) (hx : x.magnitude < Layout.binary32.infinity)
    (hs : x.significand ≠ 0) :
    let d := 52 - Nat.log2 x.significand
    let y := x.convert .binary64
    y.negative = x.negative ∧ y.magnitude < Layout.binary64.infinity ∧
      y.significand = x.significand * 2 ^ d ∧ y.exponent = x.exponent - d := by
  intro d y
  have hlog : Nat.log2 x.significand < 24 := (Nat.log2_lt hs).2 (significand_lt x)
  have hfield : x.exponentField < 255 := by
    refine (Nat.div_lt_iff_lt_mul (Nat.two_pow_pos _)).2 ?_
    simpa [Layout.infinity, Layout.binary32] using hx
  have hexp : x.exponent = -149 + ((x.exponentField - 1 : Nat) : Int) := rfl
  have hnan : x.isNaN = false := by simp [isNaN]; omega
  have hinf : x.isInfinite = false := by simp [isInfinite]; omega
  have hk1 : 2 ^ 52 ≤ x.significand * 2 ^ d := by
    have := Nat.mul_le_mul_right (2 ^ d) (Nat.log2_self_le hs)
    rwa [← Nat.pow_add, show Nat.log2 x.significand + d = 52 by omega] at this
  have hk2 : x.significand * 2 ^ d < 2 ^ 53 := by
    have := Nat.mul_lt_mul_of_pos_right (Nat.lt_log2_self (n := x.significand)) (Nat.two_pow_pos d)
    rwa [← Nat.pow_add, show Nat.log2 x.significand + 1 + d = 53 by omega] at this
  have hy : y = ofSignificand .binary64 x.negative (x.exponent - d) (x.significand * 2 ^ d) := by
    have hleast : Layout.binary64.leastExponent = -1074 := by decide
    have hbits : Layout.binary64.fractionBits = 52 := rfl
    simp only [y, convert, hnan, hinf, Bool.false_eq_true, if_false]
    refine nearestScaled_eq _ hs ?_ ?_
    · rw [hleast, hbits]
      omega
    · rw [show (x.exponent - d - x.exponent).toNat = 0 by omega,
        show (x.exponent - (x.exponent - d)).toNat = d by omega]
      simp
  have hmag : y.magnitude = (x.exponent - d + 1074).toNat * 2 ^ 52 + x.significand * 2 ^ d := by
    rw [hy]
    have : Layout.binary64.infinity = 2047 * 2 ^ 52 := by decide
    simp only [ofSignificand]
    rw [show Layout.binary64.leastExponent = -1074 by decide,
      show Layout.binary64.fractionBits = 52 from rfl, this]
    omega
  have hyfield : y.exponentField = (x.exponent - d + 1074).toNat + 1 := by
    simp only [exponentField, hmag, show Layout.binary64.fractionBits = 52 from rfl]
    omega
  refine ⟨by rw [hy]; rfl, ?_, ?_, ?_⟩
  · rw [hmag, show Layout.binary64.infinity = 2047 * 2 ^ 52 by decide]
    omega
  · rw [significand, if_neg (by omega), hmag, show Layout.binary64.fractionBits = 52 from rfl]
    omega
  · rw [exponent, hyfield, show Layout.binary64.leastExponent = -1074 by decide]
    omega

/-- Narrowing undoes widening, values that are not a number aside. -/
theorem convert_single_convert_double (x : Single) (hx : x.isNaN = false) :
    (x.convert .binary64).convert .binary32 = x := by
  have hle : x.magnitude ≤ Layout.binary32.infinity := by simpa [isNaN] using hx
  rcases Nat.lt_or_eq_of_le hle with hlt | heq
  · have hinf : x.isInfinite = false := by simp [isInfinite]; omega
    by_cases hs : x.significand = 0
    · have h1 : x.convert .binary64 = zero .binary64 x.negative := by
        simp [convert, hx, hinf, nearestScaled, nearest, hs]
      have h2 := ofSignificand_parts x hlt
      have hm : x.magnitude = 0 := by
        simp only [significand] at hs
        split at hs
        · exact hs
        · have : 0 < 2 ^ Layout.binary32.fractionBits := Nat.two_pow_pos _
          omega
      rw [h1]
      obtain ⟨s, m, h⟩ := x
      cases s <;> simp_all [convert, zero, isNaN, isInfinite, Layout.infinity, Layout.binary64,
        nearestScaled, nearest, significand, exponentField]
    · obtain ⟨hn, hmag, hsig, hexp⟩ := parts_convert_double x hlt hs
      have hlog : Nat.log2 x.significand < 24 := (Nat.log2_lt hs).2 (significand_lt x)
      have hnan' : (x.convert .binary64).isNaN = false := by simp [isNaN]; omega
      have hinf' : (x.convert .binary64).isInfinite = false := by simp [isInfinite]; omega
      rw [convert]
      simp only [hnan', hinf', Bool.false_eq_true, if_false, hn, hsig, hexp]
      rw [nearestScaled_eq x.negative (Nat.mul_ne_zero hs (Nat.ne_of_gt (Nat.two_pow_pos _)))
        (q := x.exponent) (k := x.significand)]
      · exact ofSignificand_parts x hlt
      · rw [log2_mul_two_pow hs]
        have := exponent_eq_max x hs
        omega
      · rw [show (x.exponent - (x.exponent - ((52 - Nat.log2 x.significand : Nat) : Int))).toNat =
            52 - Nat.log2 x.significand by omega,
          show (x.exponent - ((52 - Nat.log2 x.significand : Nat) : Int) - x.exponent).toNat = 0 by
            omega]
        simp
  · have h1 : x.convert .binary64 = infinite .binary64 x.negative := by
      simp [convert, hx, isInfinite, heq]
    rw [h1]
    obtain ⟨s, m, h⟩ := x
    simp_all [convert, infinite, isNaN, isInfinite]

/-- The double of a single precision number is representable in single precision. -/
theorem convert_double_idem (x : Single) :
    ((x.convert .binary64).convert .binary32).convert .binary64 = x.convert .binary64 := by
  cases hx : x.isNaN with
  | false => rw [convert_single_convert_double x hx]
  | true =>
    simp only [convert, hx, if_true]
    cases x.negative <;> decide

end Floating

end RecordQuery
