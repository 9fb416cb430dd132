import RecordQuery.Filter.Compare
import RecordQuery.Proofs.Resolve.Walk

/-!
# The form of what a path resolves to

Whether a comparison is defined depends on its two values only through their form: a list, a number,
a text or anything else. The form of what a path resolves to, and whether it resolves at all, is
decided by the schema: records of one type cannot differ in it, although one may be full of data
where the other holds only defaults. An embedded record may be present in one and absent in the
other; null and records are of the same form for that reason.
-/

namespace RecordQuery

/-- What the operators have to know of a value to be defined. -/
inductive Form where
  | list
  | number
  | text
  | other
deriving DecidableEq

section Forms

variable {ι : Type}

def Value.form : Value ι → Form
  | list _ => .list
  | number _ => .number
  | string _ => .text
  | _ => .other

def Scalar.form : Scalar → Form
  | bool => .other
  | string => .text
  | integer _ | float _ => .number

/-- The form of the values of a field type; a record may be absent. -/
def FieldType.form : FieldType ι → Form
  | scalar s => s.form
  | repeated _ => .list
  | embedded _ | optional _ | map .. => .other

/-- Whether two values of the given forms can be compared. -/
def Form.comparable (op : Operator) (a b : Form) : Bool :=
  match op with
  | .eq | .ne | .has => true
  | .gt | .gte | .lt | .lte =>
    match a, b with
    | .list, _ | _, .list | .number, .number | .text, .text => true
    | _, _ => false

theorem Scalar.form_of_admits {s : Scalar} {v : Value ι} (h : s.admits v = true) :
    v.form = s.form := by
  rcases s.admits_cases h with ⟨rfl, b, rfl⟩ | ⟨rfl, text, rfl⟩ | ⟨t, n, rfl, -, rfl⟩ |
    ⟨t, n, rfl, -, rfl⟩ | ⟨t, x, rfl, rfl⟩ <;> rfl

theorem FieldType.form_absent (type : FieldType ι) : type.absent.form = type.form := by
  cases type with
  | scalar s => exact Scalar.form_of_admits s.admits_zero
  | _ => rfl

theorem Value.isList_eq (v : Value ι) : v.isList = (v.form == .list) := by
  cases v <;> rfl

end Forms

namespace Registry

variable {ι : Type} [DecidableEq ι] {R : Registry ι} {t u : ι} {name path : String}
  {names : List String} {values? : Option (List (Value ι))} {field : Field ι}

theorem isOk_compareLeaves (op : Operator) {a b : Value ι} (ha : a.form ≠ .list)
    (hb : b.form ≠ .list) :
    (R.compareLeaves op a b).isOk = Form.comparable op a.form b.form := by
  cases op <;> cases a <;> cases b <;> first | rfl | exact absurd rfl ha | exact absurd rfl hb

/-- Whether a comparison is defined depends on the forms of its values only. -/
theorem isOk_compare (op : Operator) (a b : Value ι) :
    (R.compare op a b).isOk = Form.comparable op a.form b.form := by
  unfold compare
  rw [Value.isList_eq, Value.isList_eq]
  by_cases ha : a.form = .list
  · rw [ha]
    cases op <;> rfl
  · by_cases hb : b.form = .list
    · rw [hb]
      cases op <;> cases a <;> rfl
    · rw [if_neg (by simp [ha, hb])]
      exact isOk_compareLeaves op ha hb

/-- The form that names below a record of type `t` resolve to, if they resolve. -/
def formBelow (R : Registry ι) : ι → List String → Option Form
  | _, [] => none
  | t, name :: names =>
    match (R.describe t).field? name with
    | none => none
    | some field =>
      match field.type with
      | .map .. => if names.isEmpty then some .other else none
      | .repeated (.scalar _) => if names.isEmpty then some .list else none
      | .repeated (.record u) =>
        if names.isEmpty then some .list else (formBelow R u names).map fun _ ↦ .list
      | .embedded u | .optional u => if names.isEmpty then some .other else formBelow R u names
      | .scalar s => if names.isEmpty then some s.form else none

theorem form_of_conforms {type : FieldType ι} {v : Value ι}
    (h : conforms R.describe type v = true) : v.form = type.form := by
  cases type with
  | scalar s => exact Scalar.form_of_admits (by simpa [conforms] using h)
  | embedded t => cases v <;> simp [conforms] at h; rfl
  | optional t => cases v <;> simp [conforms] at h <;> rfl
  | repeated e => cases v <;> simp [conforms] at h; rfl
  | map key e => cases v <;> simp [conforms] at h; rfl

/-- The value of a field, or what stands for its absence, has the form of its type. -/
theorem form_getD_fieldIn? (hvalues : R.ConformIfPresent t values?)
    (hfield : (R.describe t).field? name = some field) {zero : Value ι}
    (hzero : zero.form = field.type.form) :
    ((R.fieldIn? t values? name).getD zero).form = field.type.form := by
  cases hv : R.fieldIn? t values? name with
  | none => exact hzero
  | some v => exact form_of_conforms (conforms_of_fieldIn? hvalues hfield hv)

theorem formBelow_singleton (hfield : (R.describe t).field? name = some field) :
    R.formBelow t [name] = some field.type.form := by
  simp only [formBelow, hfield, List.isEmpty_nil, if_true]
  cases field.type with
  | repeated e => cases e <;> rfl
  | _ => rfl

theorem form_resolveBelow_singleton (hvalues : R.ConformIfPresent t values?)
    (hfield : (R.describe t).field? name = some field) :
    (R.resolveBelow path t values? [name]).toOption.map Value.form = some field.type.form := by
  rw [resolveBelow_end hfield]
  exact congrArg some (form_getD_fieldIn? hvalues hfield field.type.form_absent)

/-- The schema decides whether a path resolves and to what form. -/
theorem form_resolveBelow (hvalues : R.ConformIfPresent t values?) :
    (R.resolveBelow path t values? names).toOption.map Value.form = R.formBelow t names := by
  induction names generalizing t values? with
  | nil => rfl
  | cons name names ih =>
    cases hfield : (R.describe t).field? name with
    | none =>
      simp only [resolveBelow, formBelow, hfield]
      rfl
    | some field =>
      by_cases hnames : names = []
      · rw [hnames, formBelow_singleton hfield, form_resolveBelow_singleton hvalues hfield]
      cases htype : field.type with
      | scalar s =>
        simp only [resolveBelow, formBelow, hfield, htype, List.isEmpty_iff, hnames, if_false]
        rfl
      | map key e =>
        simp only [resolveBelow, formBelow, hfield, htype, List.isEmpty_iff, hnames, if_false]
        rfl
      | embedded u =>
        rw [resolveBelow_below hfield (.inl htype) hnames]
        simp only [formBelow, hfield, htype, List.isEmpty_iff, hnames, if_false]
        exact ih (conformIfPresent_inner hvalues hfield (.inl htype))
      | optional u =>
        rw [resolveBelow_below hfield (.inr htype) hnames]
        simp only [formBelow, hfield, htype, List.isEmpty_iff, hnames, if_false]
        exact ih (conformIfPresent_inner hvalues hfield (.inr htype))
      | repeated e =>
        cases e with
        | scalar s =>
          simp only [resolveBelow, formBelow, hfield, htype, List.isEmpty_iff, hnames, if_false]
          rfl
        | record u =>
          -- the path below is checked without data, so the elements play no role
          have hbelow := ih (t := u) (show R.ConformIfPresent u none by simp [ConformIfPresent])
          simp only [resolveBelow, formBelow, hfield, htype, List.isEmpty_iff, hnames, if_false]
          rw [← hbelow]
          cases R.resolveBelow path u none names <;> rfl

end Registry

end RecordQuery
