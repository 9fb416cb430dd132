import RecordQuery.Record.Assign
import RecordQuery.Record.Basic

/-!
# Reading and changing fields below a record

A list of names leads from a record through embedded records to a field. Reading stops at a record
that is not set. Changing creates it with its default on the way, also when the walk ends before a
field is reached.
-/

namespace RecordQuery

namespace Registry

variable {ι : Type} [DecidableEq ι] (R : Registry ι)

/-- The record that a field holds, or the default one if it is not set. -/
def inner? : FieldType ι → Value ι → Option (ι × List (Value ι))
  | .embedded _, .record u fields => some (u, fields)
  | .optional _, .record u fields => some (u, fields)
  | .optional t, .null => some (t, R.default t)
  | _, _ => none

/-- The type and the value of the field that a list of names leads to. -/
def fieldAt? : List String → ι → List (Value ι) → Option (FieldType ι × Value ι)
  | [], _, _ => none
  | name :: names, t, vs =>
    match fieldOf? name (R.describe t).fields vs with
    | none => none
    | some (type, v) =>
      if names.isEmpty then some (type, v)
      else
        match v with
        | .record u inner => fieldAt? names u inner
        | _ => none

/-- Changes the field that a list of names leads to. The outcome of the change is missing if there
is no such field. -/
def edit {α : Type} (change : FieldType ι → Value ι → α × Value ι) :
    List String → ι → List (Value ι) → Option α × List (Value ι)
  | [], _, vs => (none, vs)
  | name :: names, t, vs =>
    match fieldOf? name (R.describe t).fields vs with
    | none => (none, vs)
    | some (type, v) =>
      if names.isEmpty then
        let (outcome, w) := change type v
        (some outcome, setField name w (R.describe t).fields vs)
      else
        match R.inner? type v with
        | none => (none, vs)
        | some (u, inner) =>
          let (outcome?, inner) := edit change names u inner
          (outcome?, setField name (.record u inner) (R.describe t).fields vs)

variable {R}

theorem conforms_of_inner? {type : FieldType ι} {v : Value ι} {u : ι} {inner : List (Value ι)}
    (hv : conforms R.describe type v = true) (h : R.inner? type v = some (u, inner)) :
    fieldsConform R.describe (R.describe u).fields inner = true ∧
      ∀ inner', fieldsConform R.describe (R.describe u).fields inner' = true →
        conforms R.describe type (.record u inner') = true := by
  unfold inner? at h
  split at h <;> simp only [Option.some.injEq, Prod.mk.injEq, reduceCtorEq] at h <;>
    obtain ⟨rfl, rfl⟩ := h
  · simp only [conforms, Bool.and_eq_true] at hv ⊢
    exact ⟨hv.2, fun inner' h' ↦ ⟨hv.1, h'⟩⟩
  · simp only [conforms, Bool.and_eq_true] at hv ⊢
    exact ⟨hv.2, fun inner' h' ↦ ⟨hv.1, h'⟩⟩
  · exact ⟨R.default_conforms _, fun inner' h' ↦ by simpa [conforms] using h'⟩

/-- Changes that keep the type of a field make records of records. -/
theorem fieldsConform_edit {α : Type} {change : FieldType ι → Value ι → α × Value ι}
    (hchange : ∀ type v, conforms R.describe type v = true →
      conforms R.describe type (change type v).2 = true)
    (names : List String) (t : ι) (vs : List (Value ι))
    (h : fieldsConform R.describe (R.describe t).fields vs = true) :
    fieldsConform R.describe (R.describe t).fields (R.edit change names t vs).2 = true := by
  induction names generalizing t vs with
  | nil => exact h
  | cons name names ih =>
    unfold edit
    split
    · exact h
    · rename_i type v hv
      have hc := conforms_of_fieldOf? h hv
      split
      · exact fieldsConform_setField h hv (hchange type v hc)
      · split
        · exact h
        · rename_i u inner hi
          obtain ⟨hinner, hback⟩ := conforms_of_inner? hc hi
          exact fieldsConform_setField h hv (hback _ (ih u inner hinner))

end Registry

namespace Registry

variable {ι : Type} [DecidableEq ι] (R : Registry ι)

/-- The change of a field that an assignment makes; the field keeps its value if it fails. -/
def assignTo (new : Value ι) (type : FieldType ι) (current : Value ι) :
    Except Error Unit × Value ι :=
  match R.assign type current new with
  | .ok v => (.ok (), v)
  | .error e => (.error e, current)

/-- The change that sets a field to the default record if it is an embedded record that is not set.
The outcome is the type of the record. -/
def createIn (type : FieldType ι) (current : Value ι) : Option ι × Value ι :=
  match R.inner? type current with
  | some (u, inner) => (some u, .record u inner)
  | none => (none, current)

/-- An assignment leaves a value of the field's type even where it fails. -/
theorem conforms_assignTo (new : Value ι) (type : FieldType ι) (v : Value ι)
    (h : conforms R.describe type v = true) :
    conforms R.describe type (R.assignTo new type v).2 = true := by
  unfold assignTo
  split
  · rename_i w hw
    exact conforms_of_assign R h hw
  · exact h

theorem conforms_createIn (type : FieldType ι) (v : Value ι)
    (h : conforms R.describe type v = true) :
    conforms R.describe type (R.createIn type v).2 = true := by
  unfold createIn
  split
  · rename_i u inner hi
    obtain ⟨hinner, hback⟩ := conforms_of_inner? h hi
    exact hback inner hinner
  · exact h

end Registry

namespace Record

variable {ι : Type} [DecidableEq ι] {R : Registry ι} {t : ι}

def valueAt? (r : Record R t) (names : List String) : Option (Value ι) :=
  (R.fieldAt? names t r.fields).map Prod.snd

/-- Makes a change that keeps types to the field that a list of names leads to. -/
def edit {α : Type} (r : Record R t) (change : FieldType ι → Value ι → α × Value ι)
    (h : ∀ type v, conforms R.describe type v = true →
      conforms R.describe type (change type v).2 = true) (names : List String) :
    Option α × Record R t :=
  let result := R.edit change names t r.fields
  (result.1, ⟨result.2, Registry.fieldsConform_edit h names t r.fields r.fields_conform⟩)

def assign (r : Record R t) (names : List String) (v : Value ι) :
    Option (Except Error Unit) × Record R t :=
  r.edit (R.assignTo v) (R.conforms_assignTo v) names

/-- Sets the embedded record that a list of names leads to, if it is not set, and tells its type. -/
def create (r : Record R t) (names : List String) : Option (Option ι) × Record R t :=
  r.edit R.createIn R.conforms_createIn names

end Record

end RecordQuery
