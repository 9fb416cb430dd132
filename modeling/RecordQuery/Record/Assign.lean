import RecordQuery.Error
import RecordQuery.Floating.Exact
import RecordQuery.Registry

/-!
# Assigning fields

A scalar field takes a value of its own form that it can hold; null clears any field. Clearing an
embedded record clears the fields that can be queried, at every depth, and leaves the hidden ones.
Assignment either fails or gives a value of the type of the field.
-/

namespace RecordQuery

section Scalars

variable {ι : Type}

/-- What a scalar field holds after a value has been assigned to it, if it can hold it. Numbers are
converted; integers have to stay exact and in range. -/
def Scalar.convert? : Scalar → Value ι → Option (Value ι)
  | bool, .bool b => some (.bool b)
  | string, .string s => some (.string s)
  | integer t, .number n =>
    (if t.isSigned then n.toSigned? else n.toUnsigned?).bind fun k ↦
      if t.contains k then some (.ofInteger t k) else none
  | float .double, .number n => some (.number (.float n.toDouble))
  | float .single, .number n =>
    some (.number (.float ((n.toDouble.convert .binary32).convert .binary64)))
  | _, _ => none

theorem Scalar.admits_ofInteger {t : IntegerType} {n : Int} (h : t.contains n = true) :
    (Scalar.integer t).admits (.ofInteger t n : Value ι) = true := by
  have hr := IntegerType.contains_iff.1 h
  cases t <;> simp only [IntegerType.least, IntegerType.greatest] at hr <;>
    simp only [Value.ofInteger, IntegerType.isSigned, if_true, Bool.false_eq_true, if_false,
      Value.ofSigned, Value.ofUnsigned, Scalar.admits, Bool.true_and, Bool.not_false]
  · rw [Int64.toInt_ofInt_of_le (by omega) (by omega)]
    exact h
  · rw [Int64.toInt_ofInt_of_le (by omega) (by omega)]
    exact h
  · rw [UInt64.toNat_ofNat_of_lt' (by simp only [UInt64.size]; omega), Int.toNat_of_nonneg hr.1]
    exact h
  · rw [UInt64.toNat_ofNat_of_lt' (by simp only [UInt64.size]; omega), Int.toNat_of_nonneg hr.1]
    exact h

theorem Scalar.admits_zero (s : Scalar) : s.admits (s.zero : Value ι) = true := by
  match s with
  | .bool | .string | .float .double => rfl
  | .float .single =>
    change (((Floating.zero .binary64 false).convert .binary32).convert .binary64 ==
      Floating.zero .binary64 false) = true
    decide
  | .integer t => cases t <;> exact admits_ofInteger (by decide)

/-- What a value is converted to is a value of the scalar's type. -/
theorem Scalar.admits_of_convert? {s : Scalar} {v w : Value ι} (h : s.convert? v = some w) :
    s.admits w = true := by
  match s, v with
  | .bool, .bool b => simp only [convert?, Option.some.injEq] at h; subst h; rfl
  | .string, .string b => simp only [convert?, Option.some.injEq] at h; subst h; rfl
  | .float .double, .number n => simp only [convert?, Option.some.injEq] at h; subst h; rfl
  | .float .single, .number n =>
    simp only [convert?, Option.some.injEq] at h
    subst h
    simp only [admits, Floating.convert_double_idem, beq_self_eq_true]
  | .integer t, .number n =>
    simp only [convert?, Option.bind_eq_some_iff, Option.ite_none_right_eq_some,
      Option.some.injEq] at h
    obtain ⟨k, -, hk, rfl⟩ := h
    exact admits_ofInteger hk

end Scalars

/-- What a field of a type expects to be assigned. -/
def FieldType.expected {ι : Type} : FieldType ι → Expected
  | scalar s => .scalar s
  | embedded _ | optional _ => .record
  | repeated _ => .list
  | map .. => .map

namespace Registry

variable {ι : Type} [DecidableEq ι] (R : Registry ι)

mutual

/-- The value of a field after it has been cleared. -/
def clear : FieldType ι → Value ι → Value ι
  | .embedded _, .record u fields => .record u (clearFields (R.describe u).fields fields)
  | .embedded _, v => v
  | .scalar s, _ => s.zero
  | .optional _, _ => .null
  | .repeated _, _ => .list []
  | .map .., _ => .map []

/-- The values of a record after every field that can be queried has been cleared. -/
def clearFields : List (Field ι) → List (Value ι) → List (Value ι)
  | field :: fields, v :: vs =>
    (if field.isVisible then clear field.type v else v) :: clearFields fields vs
  | _, vs => vs

end

/-- The value of a field after an assignment. -/
def assign (type : FieldType ι) (current new : Value ι) : Except Error (Value ι) :=
  match new, type with
  | .null, _ => .ok (R.clear type current)
  | _, .scalar s =>
    match s.convert? new with
    | some v => .ok v
    | none => .error (.typeMismatch type.expected new.shape)
  | _, _ => .error (.typeMismatch type.expected new.shape)

mutual

theorem conforms_clear : ∀ (type : FieldType ι) (v : Value ι),
    conforms R.describe type v = true → conforms R.describe type (R.clear type v) = true
  | .embedded t, .record u fields, h => by
    simp only [conforms, Bool.and_eq_true] at h
    simp only [clear, conforms, Bool.and_eq_true]
    exact ⟨h.1, fieldsConform_clearFields (R.describe u).fields fields h.2⟩
  | .embedded _, .null, h | .embedded _, .bool _, h | .embedded _, .number _, h
  | .embedded _, .string _, h | .embedded _, .list _, h | .embedded _, .map _, h => by
    simp [conforms] at h
  | .scalar s, v, _ => by
    simp only [clear, conforms]
    exact s.admits_zero
  | .optional _, v, _ => by simp [clear, conforms]
  | .repeated _, v, _ => by simp [clear, conforms, itemsConform]
  | .map .., v, _ => by simp [clear, conforms, pairsConform]

theorem fieldsConform_clearFields : ∀ (fields : List (Field ι)) (vs : List (Value ι)),
    fieldsConform R.describe fields vs = true →
      fieldsConform R.describe fields (R.clearFields fields vs) = true
  | [], vs, h => by cases vs <;> simpa [clearFields] using h
  | _ :: _, [], h => by simp [fieldsConform] at h
  | field :: fields, v :: vs, h => by
    simp only [fieldsConform, Bool.and_eq_true] at h
    simp only [clearFields, fieldsConform, Bool.and_eq_true]
    refine ⟨?_, fieldsConform_clearFields fields vs h.2⟩
    split
    · exact conforms_clear field.type v h.1
    · exact h.1

end

/-- An assignment that succeeds leaves a value of the type of the field. -/
theorem conforms_of_assign {type : FieldType ι} {current new v : Value ι}
    (hc : conforms R.describe type current = true) (h : R.assign type current new = .ok v) :
    conforms R.describe type v = true := by
  unfold assign at h
  split at h
  · simp only [Except.ok.injEq] at h
    rw [← h]
    exact conforms_clear R type current hc
  · split at h
    · rename_i s _ w hw
      simp only [Except.ok.injEq] at h
      rw [← h, conforms]
      exact Scalar.admits_of_convert? hw
    · simp at h
  · simp at h

end Registry

end RecordQuery
