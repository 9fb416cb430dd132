import RecordQuery.Proofs.Floating.Value
import RecordQuery.Proofs.Record.Edit
import RecordQuery.Sample.Library

/-!
# Numbers assigned to integer fields

An integer field takes a number if the value of the number is an integer in the range of the field,
and then holds that integer. Any other number is refused and leaves the record as it is, with one
exception: the double that is one more than the greatest value of 64 bits is taken for that value.
-/

namespace RecordQuery

section Values

variable {v : Number} {m n : Int} {k : IntegerType}

/-- An optional integer that may lie one above a range is moved into it. -/
theorem bind_min_eq_some_iff {n? : Option Int} {least greatest : Int} (h : least ≤ greatest) :
    (n?.bind fun n ↦ if least ≤ n ∧ n ≤ greatest + 1 then some (min n greatest) else none) =
        some m ↔
      (n? = some m ∧ least ≤ m ∧ m ≤ greatest) ∨ (n? = some (greatest + 1) ∧ m = greatest) := by
  cases n? with
  | none => simp
  | some n =>
    simp only [Option.bind_some, Option.some.injEq]
    split_ifs <;> simp <;> omega

namespace Number

/-- The value of a number, if it is finite. -/
def value? : Number → Option ℚ
  | signed n => some (n.toInt : ℚ)
  | unsigned n => some (n.toNat : ℚ)
  | float x => if x.IsFinite then some x.toRat else none

def integral? : Number → Option Int
  | signed n => some n.toInt
  | unsigned n => some n.toNat
  | float x => x.integral?

theorem value?_eq_some_iff : v.value? = some (n : ℚ) ↔ v.integral? = some n := by
  cases v with
  | signed k =>
    rw [value?, integral?, Option.some.injEq, Option.some.injEq, Int.cast_inj]
  | unsigned k =>
    rw [value?, integral?, Option.some.injEq, Option.some.injEq]
    exact_mod_cast Iff.rfl
  | float x =>
    rw [value?, integral?, Floating.integral?_eq_some_iff]
    by_cases hx : x.IsFinite <;> simp [hx]

/-- Whether a number is the double that is one more than the greatest value of 64 bits. -/
def Overshoots (v : Number) (k : IntegerType) : Prop :=
  (k = .int64 ∨ k = .uint64) ∧ v.value? = some ((k.greatest + 1 : Int) : ℚ) ∧ ∃ x, v = float x

theorem overshoots_float_iff {x : Double} : (float x).Overshoots k ↔
    (k = .int64 ∨ k = .uint64) ∧ x.integral? = some (k.greatest + 1) := by
  rw [Overshoots, value?_eq_some_iff]
  simp [integral?]

/-- A number is read as a signed integer if it is integral and in range, or if it is the float just
past the range. -/
theorem toSigned?_eq_some_iff : v.toSigned? = some n ↔
    (v.integral? = some n ∧ IntegerType.int64.contains n = true) ∨
      (v.Overshoots .int64 ∧ n = IntegerType.int64.greatest) := by
  have hrange : IntegerType.int64.contains n = true ↔ -maxSigned - 1 ≤ n ∧ n ≤ maxSigned :=
    IntegerType.contains_iff
  rw [hrange]
  cases v with
  | signed k =>
    have hlow := k.le_toInt
    have hhigh := k.toInt_lt
    simp [toSigned?, integral?, Overshoots, maxSigned]
    omega
  | unsigned k =>
    simp [toSigned?, integral?, Overshoots, maxSigned]
    omega
  | float x =>
    have hover : (float x).Overshoots .int64 ↔ x.integral? = some (maxSigned + 1) := by
      rw [overshoots_float_iff]
      exact ⟨And.right, fun h ↦ ⟨.inl rfl, h⟩⟩
    rw [hover]
    exact bind_min_eq_some_iff (by decide)

/-- A number is read as an unsigned integer if it is integral and in range, or if it is the float
just past the range. -/
theorem toUnsigned?_eq_some_iff : v.toUnsigned? = some n ↔
    (v.integral? = some n ∧ IntegerType.uint64.contains n = true) ∨
      (v.Overshoots .uint64 ∧ n = IntegerType.uint64.greatest) := by
  have hrange : IntegerType.uint64.contains n = true ↔ 0 ≤ n ∧ n ≤ maxUnsigned :=
    IntegerType.contains_iff
  rw [hrange]
  cases v with
  | signed k =>
    have hhigh := k.toInt_lt
    simp [toUnsigned?, integral?, Overshoots, maxUnsigned]
    omega
  | unsigned k =>
    have hhigh := k.toNat_lt
    simp [toUnsigned?, integral?, Overshoots, maxUnsigned]
    omega
  | float x =>
    have hover : (float x).Overshoots .uint64 ↔ x.integral? = some (maxUnsigned + 1) := by
      rw [overshoots_float_iff]
      exact ⟨And.right, fun h ↦ ⟨.inr rfl, h⟩⟩
    rw [hover]
    exact bind_min_eq_some_iff (by decide)

/-- The integer that is taken for a number, as far as it is in the range of a field. -/
theorem wide?_eq_some_iff (h : k.contains n = true) :
    (if k.isSigned then v.toSigned? else v.toUnsigned?) = some n ↔
      v.integral? = some n ∨ v.Overshoots k ∧ n = k.greatest := by
  have hnarrow (hk : k = .int32 ∨ k = .uint32) : ¬ v.Overshoots k := by
    rintro ⟨hk', -⟩
    rcases hk with rfl | rfl <;> simp at hk'
  have hrange := IntegerType.contains_iff.1 h
  cases k with
  | int64 => simp [IntegerType.isSigned, toSigned?_eq_some_iff, h]
  | uint64 => simp [IntegerType.isSigned, toUnsigned?_eq_some_iff, h]
  | int32 =>
    have hwide : IntegerType.int64.contains n = true := by
      simp only [IntegerType.contains_iff, IntegerType.least, IntegerType.greatest] at hrange ⊢
      omega
    have hne : n ≠ IntegerType.int64.greatest := by
      simp only [IntegerType.least, IntegerType.greatest] at hrange ⊢
      omega
    simp [IntegerType.isSigned, toSigned?_eq_some_iff, hwide, hne, hnarrow (.inl rfl)]
  | uint32 =>
    have hwide : IntegerType.uint64.contains n = true := by
      simp only [IntegerType.contains_iff, IntegerType.least, IntegerType.greatest] at hrange ⊢
      omega
    have hne : n ≠ IntegerType.uint64.greatest := by
      simp only [IntegerType.least, IntegerType.greatest] at hrange ⊢
      omega
    simp [IntegerType.isSigned, toUnsigned?_eq_some_iff, hwide, hne, hnarrow (.inr rfl)]

end Number

variable {ι : Type} {w : Value ι}

/-- An integer field takes the integers in its range, and the double that overshoots it. -/
theorem Scalar.convert?_integer_eq_some_iff :
    (integer k).convert? (.number v) = some w ↔ ∃ n, k.contains n = true ∧ w = .ofInteger k n ∧
      (v.integral? = some n ∨ v.Overshoots k ∧ n = k.greatest) := by
  rw [convert?, Option.bind_eq_some_iff]
  constructor
  · rintro ⟨n, hn, hw⟩
    obtain ⟨hrange, hw⟩ := Option.ite_none_right_eq_some.1 hw
    exact ⟨n, hrange, (Option.some.inj hw).symm, (Number.wide?_eq_some_iff hrange).1 hn⟩
  · rintro ⟨n, hrange, rfl, hn⟩
    exact ⟨n, (Number.wide?_eq_some_iff hrange).2 hn, if_pos hrange⟩

end Values

section Assignments

variable {ι : Type} [DecidableEq ι] {R : Registry ι} {t : ι} {names : List String}
  {current : Value ι} {k : IntegerType} {v : Number}

theorem Registry.assignTo_integer (v : Number) :
    R.assignTo (.number v) (.scalar (.integer k)) current =
      match (Scalar.integer k).convert? (.number v) with
      | some w => (.ok (), w)
      | none => (.error (.typeMismatch (.scalar (.integer k)) .number), current) := by
  rw [assignTo, assign]
  · cases (Scalar.integer k).convert? (.number v : Value ι) <;> rfl
  · exact nofun

/-- A number that an integer field takes for an integer leaves this integer there. -/
theorem Record.assign_taken (r : Record R t)
    (hfield : R.fieldAt? names t r.fields = some (.scalar (.integer k), current)) {n : Int}
    (hrange : k.contains n = true) (hn : v.integral? = some n ∨ v.Overshoots k ∧ n = k.greatest) :
    (r.assign names (.number v)).1 = some (.ok ()) ∧
      (r.assign names (.number v)).2.valueAt? names = some (.ofInteger k n) := by
  obtain ⟨houtcome, hread, -⟩ := r.assign_of_fieldAt? (.number v) hfield
  have hconvert : (Scalar.integer k).convert? (.number v) = some (.ofInteger k n : Value ι) :=
    Scalar.convert?_integer_eq_some_iff.2 ⟨n, hrange, rfl, hn⟩
  rw [Registry.assignTo_integer, hconvert] at houtcome hread
  exact ⟨houtcome, hread⟩

/-- An assignment of a number to an integer field succeeds if the number is an integer in the range of
the field, and then the field holds this integer. The double that is one more than the greatest value
of 64 bits is also accepted, for that value. Otherwise the types do not match, and the record keeps
all its values. -/
theorem Record.integer_assignment (r : Record R t)
    (hfield : R.fieldAt? names t r.fields = some (.scalar (.integer k), current)) (v : Number) :
    (∀ n : Int, v.value? = some (n : ℚ) → k.contains n = true →
      (r.assign names (.number v)).1 = some (.ok ()) ∧
        (r.assign names (.number v)).2.valueAt? names = some (.ofInteger k n)) ∧
    (v.Overshoots k →
      (r.assign names (.number v)).1 = some (.ok ()) ∧
        (r.assign names (.number v)).2.valueAt? names = some (.ofInteger k k.greatest)) ∧
    ((∀ n : Int, v.value? = some (n : ℚ) → k.contains n = false) → ¬ v.Overshoots k →
      r.assign names (.number v) =
        (some (.error (.typeMismatch (.scalar (.integer k)) .number)), r)) := by
  refine ⟨fun n hvalue hrange ↦ ?_, fun hover ↦ ?_, fun hvalue hover ↦ ?_⟩
  · exact r.assign_taken hfield hrange (.inl (Number.value?_eq_some_iff.1 hvalue))
  · exact r.assign_taken hfield (by cases k <;> decide) (.inr ⟨hover, rfl⟩)
  · obtain ⟨houtcome, -, hsame⟩ := r.assign_of_fieldAt? (.number v) hfield
    have hconvert : (Scalar.integer k).convert? (.number v : Value ι) = none := by
      rw [Option.eq_none_iff_forall_ne_some]
      intro w hw
      obtain ⟨n, hrange, -, hn⟩ := Scalar.convert?_integer_eq_some_iff.1 hw
      rcases hn with hn | ⟨hover', -⟩
      · have := hvalue n (Number.value?_eq_some_iff.2 hn)
        exact absurd (this.symm.trans hrange) Bool.false_ne_true
      · exact hover hover'
    rw [Registry.assignTo_integer, hconvert] at houtcome hsame
    exact Prod.ext houtcome (hsame rfl)

end Assignments

section Example

open Sample

theorem fieldAt?_page_count :
    library.fieldAt? ["page_count"] .book (Record.default : Record library .book).fields =
      some (.scalar (.integer .int64), .ofSigned 0) :=
  rfl

/-- An integral double is a page count, an integer of 64 bits without a sign is not always one. -/
theorem page_count_assigned :
    ((Record.default : Record library .book).assign ["page_count"]
        (.number (.float (.ofInt .binary64 448)))).2.valueAt? ["page_count"] = some (.ofSigned 448) ∧
      (Record.default : Record library .book).assign ["page_count"]
          (.number (.unsigned 0x8000000000000000)) =
        (some (.error (.typeMismatch (.scalar (.integer .int64)) .number)), Record.default) := by
  constructor
  · have hvalue : (Number.float (.ofInt .binary64 448)).value? = some ((448 : Int) : ℚ) :=
      Number.value?_eq_some_iff.2 (by decide +kernel)
    exact ((Record.integer_assignment _ fieldAt?_page_count _).1 448 hvalue (by decide)).2
  · apply (Record.integer_assignment _ fieldAt?_page_count _).2.2
    · intro n hn
      obtain rfl := Option.some.inj (Number.value?_eq_some_iff.1 hn)
      decide
    · rintro ⟨-, -, x, hx⟩
      exact nomatch hx

/-- The double `2 ^ 63` is assigned to a field whose greatest value is less by one. -/
theorem page_count_overshot :
    (Number.float (.ofInt .binary64 0x8000000000000000)).value? =
        some ((0x8000000000000000 : Int) : ℚ) ∧
      IntegerType.int64.contains 0x8000000000000000 = false ∧
      ((Record.default : Record library .book).assign ["page_count"]
        (.number (.float (.ofInt .binary64 0x8000000000000000)))).1 = some (.ok ()) ∧
      ((Record.default : Record library .book).assign ["page_count"]
        (.number (.float (.ofInt .binary64 0x8000000000000000)))).2.valueAt? ["page_count"] =
          some (.ofSigned 0x7FFFFFFFFFFFFFFF) := by
  have hvalue : (Number.float (.ofInt .binary64 0x8000000000000000)).value? =
      some ((0x8000000000000000 : Int) : ℚ) :=
    Number.value?_eq_some_iff.2 (by decide +kernel)
  have hover : (Number.float (.ofInt .binary64 0x8000000000000000)).Overshoots .int64 :=
    ⟨.inl rfl, hvalue, _, rfl⟩
  exact ⟨hvalue, by decide,
    Record.assign_taken _ fieldAt?_page_count (by decide) (.inr ⟨hover, rfl⟩)⟩

end Example

end RecordQuery
