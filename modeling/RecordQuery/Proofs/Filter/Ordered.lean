import RecordQuery.Filter.Compare
import RecordQuery.Proofs.Number.Order

/-!
# Comparing what has an order

Between two numbers and between two texts, every operator asks for the order of the two. If they have
one, each operator has the outcome that belongs to it; if one of them is not a number they have none,
and they are unequal and nothing else.
-/

namespace RecordQuery

namespace Text

theorem compare_eq_eq_iff {s t : String} : compare s t = .eq ↔ s = t := by
  rw [compare, compareChars_eq_compare, Std.compare_eq_iff_eq]
  exact ⟨Value.string_rank_inj (ι := Empty), by rintro rfl; rfl⟩

end Text

namespace Registry

variable {ι : Type} [DecidableEq ι] (R : Registry ι)

/-- Whether the operators have the outcomes that belong to an order of two values. -/
structure Ordered (u v : Value ι) (o : Ordering) : Prop where
  eq : R.compare .eq u v = .ok (o == .eq)
  ne : R.compare .ne u v = .ok (o != .eq)
  lt : R.compare .lt u v = .ok (o == .lt)
  lte : R.compare .lte u v = .ok (o != .gt)
  gt : R.compare .gt u v = .ok (o == .gt)
  gte : R.compare .gte u v = .ok (o != .lt)

/-- Whether two values are unequal and no ordering operator holds between them. -/
structure Unordered (u v : Value ι) : Prop where
  eq : R.compare .eq u v = .ok false
  ne : R.compare .ne u v = .ok true
  lt : R.compare .lt u v = .ok false
  lte : R.compare .lte u v = .ok false
  gt : R.compare .gt u v = .ok false
  gte : R.compare .gte u v = .ok false

variable {R} {a b : Number}

/-- Numbers that compare are ordered as they compare. -/
theorem ordered_number {o : Ordering} (h : a.compare? b = some o) :
    R.Ordered (.number a) (.number b) o where
  eq := by simp [compare, Value.isList, compareLeaves, equal, Number.same, h]
  ne := by simp [compare, Value.isList, compareLeaves, equal, Number.same, h, bne]
  lt := by simp [compare, Value.isList, compareLeaves, h, Operator.holds]
  lte := by simp [compare, Value.isList, compareLeaves, h, Operator.holds]
  gt := by simp [compare, Value.isList, compareLeaves, h, Operator.holds]
  gte := by simp [compare, Value.isList, compareLeaves, h, Operator.holds]

/-- Numbers that do not compare, one of them being NaN, are unequal and unordered. -/
theorem unordered_number (h : a.compare? b = none) : R.Unordered (.number a) (.number b) where
  eq := by simp [compare, Value.isList, compareLeaves, equal, Number.same, h]
  ne := by simp [compare, Value.isList, compareLeaves, equal, Number.same, h]
  lt := by simp [compare, Value.isList, compareLeaves, h]
  lte := by simp [compare, Value.isList, compareLeaves, h]
  gt := by simp [compare, Value.isList, compareLeaves, h]
  gte := by simp [compare, Value.isList, compareLeaves, h]

/-- Texts are ordered by their characters. -/
theorem ordered_string (s t : String) :
    R.Ordered (.string s) (.string t) (Text.compare s t) := by
  have hequal : R.equal (.string s) (.string t) = (Text.compare s t == .eq) := by
    rw [equal, Bool.eq_iff_iff, beq_iff_eq, beq_iff_eq, Text.compare_eq_eq_iff]
  constructor
  · simp [compare, Value.isList, compareLeaves, hequal]
  · simp [compare, Value.isList, compareLeaves, hequal, bne]
  all_goals simp [compare, Value.isList, compareLeaves, Operator.holds]

/-- Numbers are compared in the order in which they are sorted. -/
theorem ordered_totalCompare (h : (a.isNaN || b.isNaN) = false) :
    R.Ordered (.number a) (.number b) (a.totalCompare b) := by
  cases hcompare : a.compare? b with
  | none => simp [Number.compare?_eq_none_iff.1 hcompare] at h
  | some o =>
    obtain ⟨ha, hb⟩ := Bool.or_eq_false_iff.1 h
    rw [Number.totalCompare, ha, hb, hcompare]
    exact ordered_number hcompare

end Registry

end RecordQuery
