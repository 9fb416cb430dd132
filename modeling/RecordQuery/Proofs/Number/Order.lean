import Mathlib.Data.Int.ConditionallyCompleteOrder
import RecordQuery.Proofs.Floating.Monotone
import RecordQuery.Proofs.Floating.Value
import RecordQuery.Proofs.Order.Preorder

/-!
# The order of mixed numbers

As soon as a double takes part, numbers are sorted by the places of their nearest doubles; integers
among themselves are sorted exactly, and rounding keeps their order. So the sort order is a total
preorder but for one situation: a double between two different integers of which it is the nearest
double equals both of them, although they are not equal. Integers of at most 53 bits are never in
that situation.
-/

namespace RecordQuery

theorem compareInts_swap (m n : Int) : (compareInts m n).swap = compareInts n m := by
  rw [compareInts_eq_compare, compareInts_eq_compare]
  exact Std.OrientedCmp.eq_swap.symm

theorem compareInts_ne_gt_iff {m n : Int} : compareInts m n ≠ .gt ↔ m ≤ n := by
  rw [compareInts_eq_compare, ne_eq, compare_gt_iff_gt, not_lt]

namespace Number

variable {a b c : Number} {m n : Int}

/-- The place of a number among the doubles: the key of its nearest double, and the last place if it
is not a number. -/
def place (n : Number) : WithTop Int :=
  if n.isNaN then ⊤ else n.toDouble.key

theorem isNaN_toDouble (n : Number) : n.toDouble.isNaN = n.isNaN := by
  cases n with
  | signed n | unsigned n => exact Floating.isNaN_ofInt _ _
  | float x => rfl

theorem isNaN_of_integer? (h : a.integer? = some m) : a.isNaN = false := by
  cases a with
  | signed | unsigned => rfl
  | float => exact nomatch h

/-- An integer is rounded to the nearest double where it meets a float. -/
theorem toDouble_of_integer? (h : a.integer? = some m) : a.toDouble = .ofInt .binary64 m := by
  cases a with
  | signed | unsigned =>
    obtain rfl := Option.some.inj h
    rfl
  | float => exact nomatch h

theorem place_of_integer? (h : a.integer? = some m) :
    a.place = (Floating.ofInt .binary64 m).key := by
  rw [place, isNaN_of_integer? h, toDouble_of_integer? h, if_neg Bool.false_ne_true]

/-- Two integers compare exactly, whichever kinds of number hold them. -/
theorem compare?_integers (ha : a.integer? = some m) (hb : b.integer? = some n) :
    a.compare? b = some (compareInts m n) := by
  rw [compare?, ha, hb]

/-- Unless both numbers are integers, their nearest doubles are compared. -/
theorem compare?_doubles (h : a.integer? = none ∨ b.integer? = none) :
    a.compare? b = a.toDouble.compare? b.toDouble := by
  unfold compare?
  split
  · rename_i ha hb
    rcases h with h | h
    · exact nomatch ha.symm.trans h
    · exact nomatch hb.symm.trans h
  · rfl

theorem compare?_swap (a b : Number) : (a.compare? b).map Ordering.swap = b.compare? a := by
  cases ha : a.integer? with
  | none =>
    rw [compare?_doubles (.inl ha), compare?_doubles (.inr ha)]
    unfold Floating.compare?
    rw [Bool.or_comm]
    split
    · rfl
    · exact congrArg some (compareInts_swap _ _)
  | some m =>
    cases hb : b.integer? with
    | none =>
      rw [compare?_doubles (.inr hb), compare?_doubles (.inl hb)]
      unfold Floating.compare?
      rw [Bool.or_comm]
      split
      · rfl
      · exact congrArg some (compareInts_swap _ _)
    | some n =>
      rw [compare?_integers ha hb, compare?_integers hb ha, Option.map_some, compareInts_swap]

theorem totalCompare_swap (a b : Number) : (a.totalCompare b).swap = b.totalCompare a := by
  unfold totalCompare
  rw [← compare?_swap a b]
  cases a.isNaN <;> cases b.isNaN
  · cases a.compare? b <;> rfl
  all_goals rfl

theorem totalCompare_ne_gt_iff_of_integers (ha : a.integer? = some m) (hb : b.integer? = some n) :
    a.totalCompare b ≠ .gt ↔ m ≤ n := by
  rw [totalCompare, isNaN_of_integer? ha, isNaN_of_integer? hb]
  dsimp only
  rw [compare?_integers ha hb, Option.getD_some, compareInts_ne_gt_iff]

/-- As soon as one number is a float, the two are compared by their places among the doubles. -/
theorem totalCompare_ne_gt_iff_of_doubles (h : a.integer? = none ∨ b.integer? = none) :
    a.totalCompare b ≠ .gt ↔ a.place ≤ b.place := by
  have hcompare := compare?_doubles h
  unfold totalCompare place
  unfold Floating.compare? at hcompare
  rw [isNaN_toDouble, isNaN_toDouble] at hcompare
  cases ha : a.isNaN <;> cases hb : b.isNaN
  · rw [ha, hb, if_neg (by decide)] at hcompare
    rw [hcompare]
    simp [compareInts_ne_gt_iff]
  all_goals simp

/-- The order of numbers never goes against that of their nearest doubles. -/
theorem place_le_of_totalCompare (h : a.totalCompare b ≠ .gt) : a.place ≤ b.place := by
  cases ha : a.integer? with
  | none => exact (totalCompare_ne_gt_iff_of_doubles (.inl ha)).1 h
  | some m =>
    cases hb : b.integer? with
    | none => exact (totalCompare_ne_gt_iff_of_doubles (.inr hb)).1 h
    | some n =>
      have hle := (totalCompare_ne_gt_iff_of_integers ha hb).1 h
      rw [place_of_integer? ha, place_of_integer? hb]
      exact WithTop.coe_le_coe.2 (Floating.key_ofInt_mono hle)

/-- Whether a number is the nearest double of two integers, of which the first one is greater than the
second one. -/
def Blurs (b a c : Number) : Prop :=
  ∃ m n, a.integer? = some m ∧ c.integer? = some n ∧ n < m ∧
    b = .float (.ofInt .binary64 m) ∧ b = .float (.ofInt .binary64 n)

/-- A double at the place of two different integers is the nearest double of both. -/
theorem blurs_of_place_eq (ha : a.integer? = some m) (hc : c.integer? = some n) (hlt : n < m)
    (hb : b.integer? = none) (hab : a.place = b.place) (hbc : b.place = c.place) : b.Blurs a c := by
  cases b with
  | signed | unsigned => exact nomatch hb
  | float x =>
    rw [place_of_integer? ha] at hab
    rw [place_of_integer? hc] at hbc
    unfold place at hab hbc
    split at hbc
    · exact nomatch hbc
    · rename_i hx
      rw [if_neg hx] at hab
      have hm : (Floating.ofInt .binary64 m).key = x.key := WithTop.coe_inj.1 hab
      have hn : x.key = (Floating.ofInt .binary64 n).key := WithTop.coe_inj.1 hbc
      have hzero : x.key ≠ 0 := by
        have hm' := Floating.key_ofInt_sign m
        have hn' := Floating.key_ofInt_sign n
        omega
      refine ⟨m, n, ha, hc, hlt, ?_, ?_⟩
      · rw [Floating.eq_of_key_eq hm.symm hzero]
      · rw [Floating.eq_of_key_eq hn hzero]

/-- The total comparison passes over a middle number unless that number blurs the outer two, which
are then different integers that round to it. -/
theorem totalCompare_trans_iff (hab : a.totalCompare b ≠ .gt) (hbc : b.totalCompare c ≠ .gt) :
    a.totalCompare c ≠ .gt ↔ ¬ b.Blurs a c := by
  constructor
  · rintro hac ⟨m, n, ha, hc, hlt, -, -⟩
    have := (totalCompare_ne_gt_iff_of_integers ha hc).1 hac
    omega
  · intro hblurs
    have hplace_ab := place_le_of_totalCompare hab
    have hplace_bc := place_le_of_totalCompare hbc
    cases ha : a.integer? with
    | none => exact (totalCompare_ne_gt_iff_of_doubles (.inl ha)).2 (hplace_ab.trans hplace_bc)
    | some m =>
      cases hc : c.integer? with
      | none => exact (totalCompare_ne_gt_iff_of_doubles (.inr hc)).2 (hplace_ab.trans hplace_bc)
      | some n =>
        rw [totalCompare_ne_gt_iff_of_integers ha hc]
        cases hb : b.integer? with
        | some k =>
          have hmk := (totalCompare_ne_gt_iff_of_integers ha hb).1 hab
          have hkn := (totalCompare_ne_gt_iff_of_integers hb hc).1 hbc
          omega
        | none =>
          -- otherwise the greater integer would not lie behind the smaller one
          by_contra hlt
          have hca : c.place ≤ a.place :=
            place_le_of_totalCompare ((totalCompare_ne_gt_iff_of_integers hc ha).2 (by omega))
          exact hblurs (blurs_of_place_eq ha hc (by omega) hb
            (le_antisymm hplace_ab (hplace_bc.trans hca))
            (le_antisymm hplace_bc (hca.trans hplace_ab)))

/-- Numbers are compared unless one of them is not a number. -/
theorem compare?_eq_none_iff : a.compare? b = none ↔ (a.isNaN || b.isNaN) = true := by
  have hdoubles (h : a.integer? = none ∨ b.integer? = none) :
      a.compare? b = none ↔ (a.isNaN || b.isNaN) = true := by
    rw [compare?_doubles h, Floating.compare?, isNaN_toDouble, isNaN_toDouble]
    cases a.isNaN || b.isNaN <;> simp
  cases ha : a.integer? with
  | none => exact hdoubles (.inl ha)
  | some m =>
    cases hb : b.integer? with
    | none => exact hdoubles (.inr hb)
    | some n => simp [compare?_integers ha hb, isNaN_of_integer? ha, isNaN_of_integer? hb]

/-- Two numbers are equal if they are sorted as equals and none of them is not a number. -/
theorem same_iff : a.same b = true ↔ (a.isNaN || b.isNaN) = false ∧ a.totalCompare b = .eq := by
  rw [same, beq_iff_eq]
  cases hcompare : a.compare? b with
  | none => simp [compare?_eq_none_iff.1 hcompare]
  | some o =>
    have hnumbers : (a.isNaN || b.isNaN) = false := by
      rw [Bool.eq_false_iff, ne_eq, ← compare?_eq_none_iff, hcompare]
      exact nofun
    obtain ⟨ha, hb⟩ := Bool.or_eq_false_iff.1 hnumbers
    rw [totalCompare, ha, hb, hcompare]
    simp

theorem same_trans_iff (hab : a.same b = true) (hbc : b.same c = true) :
    a.same c = true ↔ ¬ b.Blurs a c ∧ ¬ b.Blurs c a := by
  obtain ⟨hnumbers, hab⟩ := same_iff.1 hab
  obtain ⟨hnumbers', hbc⟩ := same_iff.1 hbc
  have hac : (a.isNaN || c.isNaN) = false := by
    rw [Bool.or_eq_false_iff] at hnumbers hnumbers' ⊢
    exact ⟨hnumbers.1, hnumbers'.2⟩
  have hba : b.totalCompare a = .eq := by rw [← totalCompare_swap, hab]; rfl
  have hcb : c.totalCompare b = .eq := by rw [← totalCompare_swap, hbc]; rfl
  have hforth := totalCompare_trans_iff (a := a) (b := b) (c := c) (by simp [hab]) (by simp [hbc])
  have hback := totalCompare_trans_iff (a := c) (b := b) (c := a) (by simp [hcb]) (by simp [hba])
  rw [same_iff, ← hforth, ← hback, ← totalCompare_swap a c, hac]
  cases a.totalCompare c <;> simp

/-- The order in which numbers are sorted is total, and it is transitive but for a double between two
integers of which it is the nearest double, the greater one first: the double is sorted as the equal
of both, the integers are not. Equality of numbers is transitive with the same exception. One of the
two integers has more than 53 bits. -/
theorem totalCompare_preorder_unless_blurred (a b c : Number) :
    (a.totalCompare b).swap = b.totalCompare a ∧
    (a.totalCompare b ≠ .gt → b.totalCompare c ≠ .gt →
      (a.totalCompare c ≠ .gt ↔ ¬ b.Blurs a c)) ∧
    (a.same b = true → b.same c = true →
      (a.same c = true ↔ ¬ b.Blurs a c ∧ ¬ b.Blurs c a)) ∧
    (b.Blurs a c →
      ∃ n : Int, (a.integer? = some n ∨ c.integer? = some n) ∧ 2 ^ 53 < n.natAbs) := by
  refine ⟨totalCompare_swap a b, totalCompare_trans_iff, same_trans_iff, ?_⟩
  rintro ⟨m, n, ha, hc, hlt, hm, hn⟩
  by_contra hwide
  push Not at hwide
  have hshared : Floating.ofInt .binary64 m = Floating.ofInt .binary64 n :=
    Number.float.inj (hm.symm.trans hn)
  have := Floating.ofInt_injOn (hwide m (.inl ha)) (hwide n (.inr hc)) hshared
  omega

def double53 : Double :=
  .ofInt .binary64 0x20000000000000

/-- The double `2 ^ 53` lies between that integer and the next one, in this order. -/
theorem totalCompare_preorder_above_double53 :
    (signed 0x20000000000000).totalCompare (float double53) ≠ .gt ∧
      (float double53).totalCompare (unsigned 0x20000000000001) ≠ .gt ∧
      (signed 0x20000000000000).totalCompare (unsigned 0x20000000000001) ≠ .gt := by
  have hlow : (signed 0x20000000000000).totalCompare (float double53) ≠ .gt := by decide +kernel
  have hhigh : (float double53).totalCompare (unsigned 0x20000000000001) ≠ .gt := by
    decide +kernel
  refine ⟨hlow, hhigh, ((totalCompare_preorder_unless_blurred _ _ _).2.1 hlow hhigh).2 ?_⟩
  rintro ⟨m, n, hm, hn, hlt, -⟩
  obtain rfl := Option.some.inj hm
  obtain rfl := Option.some.inj hn
  exact absurd hlt (by decide)

/-- The double `2 ^ 53` equals that integer and the next one, which is greater. -/
theorem totalCompare_not_transitive :
    ((signed 0x20000000000001).totalCompare (float double53) = .eq ∧
      (float double53).totalCompare (signed 0x20000000000000) = .eq ∧
      (signed 0x20000000000001).totalCompare (signed 0x20000000000000) = .gt) ∧
    (signed 0x20000000000001).same (float double53) = true ∧
      (float double53).same (signed 0x20000000000000) = true ∧
      (signed 0x20000000000001).same (signed 0x20000000000000) = false := by
  decide +kernel

end Number

end RecordQuery
