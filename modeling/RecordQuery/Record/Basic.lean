import RecordQuery.Registry

/-!
# Records

A record of a type is a list of values, one for each field of the type, that conform to the fields.
Fields are read and replaced by their query names; replacing a value by another one of the same type
gives a record again.
-/

namespace RecordQuery

section Fields

variable {ι : Type}

/-- The type and the value of the field queried by `name`. -/
def fieldOf? (name : String) : List (Field ι) → List (Value ι) → Option (FieldType ι × Value ι)
  | field :: fields, v :: vs =>
    if field.name? = some name then some (field.type, v) else fieldOf? name fields vs
  | _, _ => none

/-- The values with the one of the field queried by `name` replaced. -/
def setField (name : String) (w : Value ι) : List (Field ι) → List (Value ι) → List (Value ι)
  | field :: fields, v :: vs =>
    if field.name? = some name then w :: vs else v :: setField name w fields vs
  | _, vs => vs

theorem name_mem_of_fieldOf? {name : String} {fields : List (Field ι)} {values : List (Value ι)}
    {p : FieldType ι × Value ι} (h : fieldOf? name fields values = some p) :
    name ∈ fields.filterMap Field.name? := by
  induction fields generalizing values with
  | nil => simp [fieldOf?] at h
  | cons field fields ih =>
    cases values with
    | nil => simp [fieldOf?] at h
    | cons v values =>
      rw [fieldOf?] at h
      split at h
      next hname => simp [hname]
      next =>
        obtain ⟨field', hmem, hname⟩ := List.mem_filterMap.1 (ih h)
        exact List.mem_filterMap.2 ⟨field', List.mem_cons_of_mem _ hmem, hname⟩

theorem value_mem_of_fieldOf? {name : String} {fields : List (Field ι)} {values : List (Value ι)}
    {type : FieldType ι} {v : Value ι}
    (h : fieldOf? name fields values = some (type, v)) : v ∈ values := by
  induction fields generalizing values with
  | nil => simp [fieldOf?] at h
  | cons field fields ih =>
    cases values with
    | nil => simp [fieldOf?] at h
    | cons w values =>
      rw [fieldOf?] at h
      split at h
      next =>
        cases h
        exact List.mem_cons_self
      next => exact List.mem_cons_of_mem _ (ih h)

variable [DecidableEq ι] {describe : ι → RecordType ι} {name : String} {type : FieldType ι}
  {v w : Value ι}

/-- The fields of a conforming record conform to their types. -/
theorem conforms_of_fieldOf? {fields : List (Field ι)} {vs : List (Value ι)}
    (h : fieldsConform describe fields vs = true) (hv : fieldOf? name fields vs = some (type, v)) :
    conforms describe type v = true := by
  induction fields generalizing vs with
  | nil => cases vs <;> simp [fieldOf?] at hv
  | cons field fields ih =>
    cases vs with
    | nil => simp [fieldOf?] at hv
    | cons u us =>
      simp only [fieldsConform, Bool.and_eq_true] at h
      simp only [fieldOf?] at hv
      split at hv
      · simp only [Option.some.injEq, Prod.mk.injEq] at hv
        rw [← hv.1, ← hv.2]
        exact h.1
      · exact ih h.2 hv

theorem mem_itemsConform {items : List (Value ι)} (h : itemsConform describe type items = true)
    (hv : v ∈ items) : conforms describe type v = true := by
  induction items with
  | nil => simp at hv
  | cons w items ih =>
    simp only [itemsConform, Bool.and_eq_true] at h
    rcases List.mem_cons.1 hv with rfl | hv
    · exact h.1
    · exact ih h.2 hv

/-- Only repeated fields hold lists. -/
theorem exists_repeated_of_conforms {items : List (Value ι)}
    (h : conforms describe type (.list items) = true) :
    ∃ e, type = .repeated e ∧ itemsConform describe e.fieldType items = true := by
  cases type with
  | repeated e => exact ⟨e, rfl, by rwa [conforms] at h⟩
  | scalar s => cases s <;> simp [conforms, Scalar.admits] at h
  | _ => simp [conforms] at h

/-- Only maps hold pairs. -/
theorem exists_map_of_conforms {pairs : List (Value ι × Value ι)}
    (h : conforms describe type (.map pairs) = true) :
    ∃ key e, type = .map key e ∧ pairsConform describe key e.fieldType pairs = true := by
  cases type with
  | map key e => exact ⟨key, e, rfl, by rwa [conforms] at h⟩
  | scalar s => cases s <;> simp [conforms, Scalar.admits] at h
  | _ => simp [conforms] at h

/-- Only embedded records hold records, of their type. -/
theorem embedded_or_optional_of_conforms {u : ι} {fields : List (Value ι)}
    (h : conforms describe type (.record u fields) = true) :
    (type = .embedded u ∨ type = .optional u) ∧
      fieldsConform describe (describe u).fields fields = true := by
  cases type with
  | embedded t =>
    simp only [conforms, Bool.and_eq_true, beq_iff_eq] at h
    exact ⟨.inl (congrArg _ h.1.symm), h.2⟩
  | optional t =>
    simp only [conforms, Bool.and_eq_true, beq_iff_eq] at h
    exact ⟨.inr (congrArg _ h.1.symm), h.2⟩
  | scalar s => cases s <;> simp [conforms, Scalar.admits] at h
  | repeated | map => simp [conforms] at h

/-- Setting a field to a value of its type keeps a record conforming. -/
theorem fieldsConform_setField {fields : List (Field ι)} {vs : List (Value ι)}
    (h : fieldsConform describe fields vs = true) (hv : fieldOf? name fields vs = some (type, v))
    (hw : conforms describe type w = true) :
    fieldsConform describe fields (setField name w fields vs) = true := by
  induction fields generalizing vs with
  | nil => cases vs <;> simp [fieldOf?] at hv
  | cons field fields ih =>
    cases vs with
    | nil => simp [fieldOf?] at hv
    | cons u us =>
      simp only [fieldsConform, Bool.and_eq_true] at h
      simp only [fieldOf?] at hv
      simp only [setField]
      split at hv
      · rename_i hn
        simp only [Option.some.injEq, Prod.mk.injEq] at hv
        simp only [if_pos hn, fieldsConform, Bool.and_eq_true]
        exact ⟨by rw [hv.1]; exact hw, h.2⟩
      · rename_i hn
        simp only [if_neg hn, fieldsConform, Bool.and_eq_true]
        exact ⟨h.1, ih h.2 hv⟩

end Fields

/-- A record of type `t`: values that conform to its fields. -/
structure Record {ι : Type} [DecidableEq ι] (R : Registry ι) (t : ι) where
  fields : List (Value ι)
  fields_conform : fieldsConform R.describe (R.describe t).fields fields = true

namespace Record

variable {ι : Type} [DecidableEq ι] {R : Registry ι} {t : ι}

def default : Record R t :=
  ⟨R.default t, R.default_conforms t⟩

/-- The record with the given values, if they conform. -/
def ofFields? (R : Registry ι) (t : ι) (fields : List (Value ι)) : Option (Record R t) :=
  if h : fieldsConform R.describe (R.describe t).fields fields = true then some ⟨fields, h⟩
  else none

def toValue (r : Record R t) : Value ι :=
  .record t r.fields

theorem conforms_toValue (r : Record R t) :
    conforms R.describe (.embedded t) r.toValue = true := by
  simp only [toValue, conforms, beq_self_eq_true, Bool.true_and]
  exact r.fields_conform

/-- The value of the field queried by `name`. -/
def get? (r : Record R t) (name : String) : Option (Value ι) :=
  (fieldOf? name (R.describe t).fields r.fields).map Prod.snd

end Record

end RecordQuery
