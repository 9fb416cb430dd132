import RecordQuery.Proofs.Resolve.SortKey
import RecordQuery.Record.Edit

/-!
# Reading a changed field

Where a list of names leads to a field of a record, a change of that field has its outcome and leaves
its result in the field. A change that does not change the value of the field gives the same record,
and the other fields are what they were in any case.
-/

namespace RecordQuery

section Fields

variable {ι : Type} {fields : List (Field ι)} {values : List (Value ι)} {field : Field ι}
  {type : FieldType ι} {v : Value ι} {name : String} {i : Nat}

/-- A field of a record is described under its name. -/
theorem exists_find?_of_fieldOf? (h : fieldOf? name fields values = some (type, v)) :
    ∃ field, fields.find? (fun field ↦ field.name? == some name) = some field ∧
      field.type = type := by
  fun_induction fieldOf? name fields values with
  | case1 field fields u values hname =>
    rw [Option.some.injEq, Prod.mk.injEq] at h
    exact ⟨field, List.find?_cons_of_pos (by simpa using hname), h.1⟩
  | case2 field fields u values hname ih =>
    rw [List.find?_cons_of_neg (by simpa using hname)]
    exact ih h
  | case3 => simp at h

theorem fieldOf?_setField (w : Value ι) (hv : fieldOf? name fields values = some (type, v)) :
    fieldOf? name fields (setField name w fields values) = some (type, w) := by
  fun_induction fieldOf? name fields values with
  | case1 field fields u values hname =>
    rw [setField, if_pos hname, fieldOf?, if_pos hname, (Prod.mk.inj (Option.some.inj hv)).1]
  | case2 field fields u values hname ih =>
    rw [setField, if_neg hname, fieldOf?, if_neg hname, ih hv]
  | case3 => simp at hv

/-- Replacing a field leaves the fields of other names as they are. -/
theorem fieldOf?_setField_of_ne {name' : String} (hne : name' ≠ name) (w : Value ι)
    (fields : List (Field ι)) (values : List (Value ι)) :
    fieldOf? name' fields (setField name w fields values) = fieldOf? name' fields values := by
  fun_induction setField name w fields values with
  | case1 field fields v values hname =>
    have hname' : field.name? ≠ some name' := by
      rw [hname]
      exact fun h ↦ hne (Option.some.inj h).symm
    rw [fieldOf?, fieldOf?, if_neg hname', if_neg hname']
  | case2 field fields v values hname ih => rw [fieldOf?, fieldOf?, ih]
  | case3 => rfl

end Fields

variable {ι : Type} [DecidableEq ι] {R : Registry ι} {t u : ι} {name : String}
  {names : List String} {values inner : List (Value ι)} {type : FieldType ι} {v : Value ι}

namespace Registry

theorem fieldAt?_singleton :
    R.fieldAt? [name] t values = fieldOf? name (R.describe t).fields values := by
  rw [fieldAt?]
  cases fieldOf? name (R.describe t).fields values <;> rfl

theorem fieldAt?_cons_of_record (hne : names ≠ [])
    (hv : fieldOf? name (R.describe t).fields values = some (type, .record u inner)) :
    R.fieldAt? (name :: names) t values = R.fieldAt? names u inner := by
  simp [fieldAt?, hv, hne]

/-- What a list of names leads to is a field of the record, or of a record that a field holds. -/
theorem fieldAt?_cons_cases (h : R.fieldAt? (name :: names) t values = some (type, v)) :
    (names = [] ∧ fieldOf? name (R.describe t).fields values = some (type, v)) ∨
      ∃ outer u inner, names ≠ [] ∧
        fieldOf? name (R.describe t).fields values = some (outer, .record u inner) ∧
        R.fieldAt? names u inner = some (type, v) := by
  by_cases hne : names = []
  · subst hne
    exact .inl ⟨rfl, fieldAt?_singleton.symm.trans h⟩
  · unfold fieldAt? at h
    split at h
    · exact nomatch h
    · rename_i outer w hw
      rw [if_neg (by simpa using hne)] at h
      cases w with
      | record u inner => exact .inr ⟨outer, u, inner, hne, hw, h⟩
      | _ => exact nomatch h

theorem inner?_of_conforms (h : conforms R.describe type (.record u inner) = true) :
    R.inner? type (.record u inner) = some (u, inner) := by
  rcases (embedded_or_optional_of_conforms h).1 with rfl | rfl <;> rfl

section Edit

variable {α : Type} (change : FieldType ι → Value ι → α × Value ι)

/-- At a single name an edit changes the value of that field and nothing else. -/
theorem edit_singleton (hv : fieldOf? name (R.describe t).fields values = some (type, v)) :
    R.edit change [name] t values =
      (some (change type v).1, setField name (change type v).2 (R.describe t).fields values) := by
  simp [edit, hv]

/-- A path that goes through an embedded record changes that record, which is created if it is not
set. -/
theorem edit_cons_of_inner? (hne : names ≠ [])
    (hv : fieldOf? name (R.describe t).fields values = some (type, v))
    (hinner : R.inner? type v = some (u, inner)) :
    R.edit change (name :: names) t values =
      ((R.edit change names u inner).1,
        setField name (.record u (R.edit change names u inner).2) (R.describe t).fields values) := by
  simp [edit, hv, hne, hinner]

/-- Creating the record at the end of a path creates those on the way. -/
theorem edit_createIn_cons (hv : fieldOf? name (R.describe t).fields values = some (type, v))
    (hinner : R.inner? type v = some (u, inner)) :
    (R.edit R.createIn (name :: names) t values).2 =
      setField name (.record u (R.edit R.createIn names u inner).2) (R.describe t).fields values := by
  by_cases hne : names = []
  · subst hne
    rw [edit_singleton _ hv, createIn, hinner]
    rfl
  · rw [edit_cons_of_inner? _ hne hv hinner]

/-- The record after a change of a field, and the outcome. The induction is on the names, along the
records that are held on the way. -/
theorem edit_of_fieldAt? (hvalues : fieldsConform R.describe (R.describe t).fields values = true)
    (h : R.fieldAt? names t values = some (type, v)) :
    (R.edit change names t values).1 = some (change type v).1 ∧
      R.fieldAt? names t (R.edit change names t values).2 = some (type, (change type v).2) ∧
      ((change type v).2 = v → (R.edit change names t values).2 = values) := by
  induction names generalizing t values with
  | nil => exact nomatch h
  | cons name names ih =>
    rcases fieldAt?_cons_cases h with ⟨rfl, hv⟩ | ⟨outer, u, inner, hne, hv, hbelow⟩
    · rw [edit_singleton change hv]
      refine ⟨rfl, fieldAt?_singleton.trans (fieldOf?_setField _ hv), fun hsame ↦ ?_⟩
      exact (congrArg (setField name · _ _) hsame).trans (setField_self hv)
    · have hrecord := conforms_of_fieldOf? hvalues hv
      obtain ⟨houtcome, hread, hsame⟩ := ih (embedded_or_optional_of_conforms hrecord).2 hbelow
      rw [edit_cons_of_inner? change hne hv (inner?_of_conforms hrecord)]
      refine ⟨houtcome, ?_, fun heq ↦ ?_⟩
      · exact (fieldAt?_cons_of_record hne (fieldOf?_setField _ hv)).trans hread
      · rw [hsame heq]
        exact setField_self hv

end Edit

end Registry

theorem Record.eq_of_fields_eq {r s : Record R t} (h : r.fields = s.fields) : r = s := by
  cases r
  cases s
  cases h
  rfl

/-- Assigning to a field that the record has. -/
theorem Record.assign_of_fieldAt? (r : Record R t) (new : Value ι)
    (h : R.fieldAt? names t r.fields = some (type, v)) :
    (r.assign names new).1 = some (R.assignTo new type v).1 ∧
      (r.assign names new).2.valueAt? names = some (R.assignTo new type v).2 ∧
      ((R.assignTo new type v).2 = v → (r.assign names new).2 = r) := by
  obtain ⟨houtcome, hread, hsame⟩ :=
    Registry.edit_of_fieldAt? (R.assignTo new) r.fields_conform h
  refine ⟨houtcome, ?_, fun heq ↦ ?_⟩
  · exact congrArg (Option.map Prod.snd) hread
  · exact eq_of_fields_eq (hsame heq)

end RecordQuery
