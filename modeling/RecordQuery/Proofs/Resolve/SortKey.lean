import RecordQuery.Record.Assign
import RecordQuery.Record.Basic
import RecordQuery.Resolve

/-!
# Paths to scalars

A sort key leads from a record type through embedded records to a scalar field. `Reaches` says so
without the checks and messages of the resolver; a path that reaches a scalar of some type reads as a
value of that type on every record, also below embedded records that are not set.
-/

namespace RecordQuery

section Fields

variable {ι : Type} [DecidableEq ι] {describe : ι → RecordType ι} {name : String}

/-- A record has a value of the right type for every field that can be queried. -/
theorem exists_fieldOf? {fields : List (Field ι)} {vs : List (Value ι)} {field : Field ι}
    (h : fieldsConform describe fields vs = true)
    (hf : fields.find? (fun field ↦ field.name? == some name) = some field) :
    ∃ v, fieldOf? name fields vs = some (field.type, v) ∧
      conforms describe field.type v = true := by
  induction fields generalizing vs with
  | nil => simp at hf
  | cons first fields ih =>
    cases vs with
    | nil => simp [fieldsConform] at h
    | cons v vs =>
      simp only [fieldsConform, Bool.and_eq_true] at h
      by_cases hn : first.name? = some name
      · have hfirst : first = field := by simpa [hn] using hf
        subst hfirst
        exact ⟨v, by simp [fieldOf?, hn], h.1⟩
      · rw [List.find?_cons_of_neg (by simpa using hn)] at hf
        obtain ⟨w, hw, hc⟩ := ih h.2 hf
        exact ⟨w, by simp [fieldOf?, hn, hw], hc⟩

omit [DecidableEq ι] in
theorem setField_self {fields : List (Field ι)} {vs : List (Value ι)} {type : FieldType ι}
    {v : Value ι} (hv : fieldOf? name fields vs = some (type, v)) :
    setField name v fields vs = vs := by
  fun_induction fieldOf? name fields vs with
  | case1 field fields w vs hname =>
    rw [setField, if_pos hname, (Prod.mk.inj (Option.some.inj hv)).2]
  | case2 field fields w vs hname ih => rw [setField, if_neg hname, ih hv]
  | case3 => simp at hv

end Fields

/-- The values of each scalar type. -/
theorem Scalar.admits_cases {ι : Type} {s : Scalar} {v : Value ι} (h : s.admits v = true) :
    (s = .bool ∧ ∃ b, v = .bool b) ∨ (s = .string ∧ ∃ text, v = .string text) ∨
      (∃ t n, s = .integer t ∧ t.isSigned = true ∧ v = .number (.signed n)) ∨
      (∃ t n, s = .integer t ∧ t.isSigned = false ∧ v = .number (.unsigned n)) ∨
      ∃ t x, s = .float t ∧ v = .number (.float x) := by
  unfold admits at h
  split at h <;> simp_all

theorem Scalar.ne_null_of_admits {ι : Type} {s : Scalar} {v : Value ι} (h : s.admits v = true) :
    v ≠ .null := by
  rintro rfl
  cases s <;> simp [admits] at h

namespace Registry

variable {ι : Type} [DecidableEq ι] (R : Registry ι)

/-- Whether names lead from a record type through embedded records to a scalar field. -/
inductive Reaches : ι → List String → Scalar → Prop
  | scalar {t : ι} {name : String} {field : Field ι} {s : Scalar}
      (hfield : (R.describe t).field? name = some field) (htype : field.type = .scalar s) :
      Reaches t [name] s
  | through {t u : ι} {name : String} {field : Field ι} {names : List String} {s : Scalar}
      (hfield : (R.describe t).field? name = some field)
      (htype : field.type = .embedded u ∨ field.type = .optional u) (hnames : Reaches u names s) :
      Reaches t (name :: names) s

variable {R} {t u : ι} {name path : String} {names : List String} {s : Scalar}
  {field : Field ι}

theorem Reaches.ne_nil (h : R.Reaches t names s) : names ≠ [] := by
  cases h <;> simp

/-- The paths that are accepted as sort keys are those that reach a scalar. -/
theorem sortKindBelow_eq_ok_iff {kind : Kind ι} :
    R.sortKindBelow path t names = .ok kind ↔ ∃ s : Scalar, R.Reaches t names s ∧ kind = s.kind := by
  constructor
  · intro h
    induction names generalizing t with
    | nil => simp [sortKindBelow] at h
    | cons name names ih =>
      unfold sortKindBelow at h
      split at h
      · simp at h
      · rename_i field hfield
        split at h
        · simp at h
        · simp at h
        · rename_i u htype
          split at h
          · simp at h
          · obtain ⟨s, hs, hkind⟩ := ih h
            exact ⟨s, .through hfield (.inl htype) hs, hkind⟩
        · rename_i u htype
          split at h
          · simp at h
          · obtain ⟨s, hs, hkind⟩ := ih h
            exact ⟨s, .through hfield (.inr htype) hs, hkind⟩
        · rename_i s htype
          split at h
          · rename_i hnil
            rw [List.isEmpty_iff.1 hnil]
            exact ⟨s, .scalar hfield htype, (Except.ok.inj h).symm⟩
          · simp at h
  · rintro ⟨s, hs, rfl⟩
    induction hs with
    | scalar hfield htype => simp [sortKindBelow, hfield, htype]
    | through hfield htype hnames ih =>
      have hne := hnames.ne_nil
      rcases htype with htype | htype <;> simp [sortKindBelow, hfield, htype, hne, ih]

/-- A path can be sorted by exactly if it reaches a scalar through single records. -/
theorem sortKind_eq_ok_iff {path : FieldPath} {kind : Kind ι} :
    R.sortKind t path = .ok kind ↔
      ∃ s : Scalar, R.Reaches t path.segments s ∧ kind = s.kind :=
  sortKindBelow_eq_ok_iff

/-- The values of the record that a value is, if it is one. -/
def valuesOf? : Value ι → Option (List (Value ι))
  | .record _ values => some values
  | _ => none

/-- A field of a record that may be absent. -/
def fieldIn? (R : Registry ι) (t : ι) (values? : Option (List (Value ι))) (name : String) :
    Option (Value ι) :=
  values?.bind fun values ↦ (fieldOf? name (R.describe t).fields values).map Prod.snd

theorem fieldIn?_of_fieldOf? {type : FieldType ι} {values : List (Value ι)} {v : Value ι}
    (hv : fieldOf? name (R.describe t).fields values = some (type, v)) :
    R.fieldIn? t (some values) name = some v := by
  rw [fieldIn?, Option.bind_some, hv, Option.map_some]

theorem resolveBelow_leaf (hfield : (R.describe t).field? name = some field)
    (htype : field.type = .scalar s) (values? : Option (List (Value ι))) :
    R.resolveBelow path t values? [name] = .ok ((R.fieldIn? t values? name).getD s.zero) := by
  simp [resolveBelow, hfield, htype, fieldIn?]

theorem resolveBelow_below (hfield : (R.describe t).field? name = some field)
    (htype : field.type = .embedded u ∨ field.type = .optional u) (hne : names ≠ [])
    (values? : Option (List (Value ι))) :
    R.resolveBelow path t values? (name :: names) =
      R.resolveBelow path u ((R.fieldIn? t values? name).bind valuesOf?) names := by
  rw [resolveBelow.eq_def]
  simp only [hfield, fieldIn?]
  generalize (values?.bind fun values ↦
    (fieldOf? name (R.describe t).fields values).map Prod.snd) = value?
  rcases htype with htype | htype
  all_goals
    simp only [htype, List.isEmpty_iff, hne, if_false]
    cases value? with
    | none => rfl
    | some v => cases v <;> rfl

/-- The values of an embedded record conform to its fields. -/
theorem fieldsConform_valuesOf? {type : FieldType ι} {v : Value ι} {inner : List (Value ι)}
    (htype : type = .embedded u ∨ type = .optional u) (hv : conforms R.describe type v = true)
    (h : valuesOf? v = some inner) : fieldsConform R.describe (R.describe u).fields inner = true := by
  cases v with
  | record w fields =>
    obtain rfl : fields = inner := by simpa [valuesOf?] using h
    rcases htype with rfl | rfl <;>
      simp only [conforms, Bool.and_eq_true, beq_iff_eq] at hv <;>
      exact hv.1 ▸ hv.2
  | _ => simp [valuesOf?] at h

/-- Whether the values of a record, if it is present, conform to the fields of its type. -/
def ConformIfPresent (R : Registry ι) (t : ι) (values? : Option (List (Value ι))) : Prop :=
  ∀ values ∈ values?, fieldsConform R.describe (R.describe t).fields values = true

theorem conformIfPresent_some {values : List (Value ι)}
    (hvalues : fieldsConform R.describe (R.describe t).fields values = true) :
    R.ConformIfPresent t (some values) :=
  fun _ h ↦ Option.some.inj h ▸ hvalues

theorem conforms_of_fieldIn? {values? : Option (List (Value ι))} {v : Value ι}
    (hvalues : R.ConformIfPresent t values?) (hfield : (R.describe t).field? name = some field)
    (hv : R.fieldIn? t values? name = some v) : conforms R.describe field.type v = true := by
  cases values? with
  | none => simp [fieldIn?] at hv
  | some values =>
    obtain ⟨w, hw, hc⟩ := exists_fieldOf? (hvalues values rfl) hfield
    obtain rfl : w = v := by simpa [fieldIn?, hw] using hv
    exact hc

theorem conformIfPresent_inner {values? : Option (List (Value ι))}
    (hvalues : R.ConformIfPresent t values?) (hfield : (R.describe t).field? name = some field)
    (htype : field.type = .embedded u ∨ field.type = .optional u) :
    R.ConformIfPresent u ((R.fieldIn? t values? name).bind valuesOf?) := by
  intro inner hinner
  obtain ⟨v, hv, hi⟩ := Option.bind_eq_some_iff.1 hinner
  exact fieldsConform_valuesOf? htype (conforms_of_fieldIn? hvalues hfield hv) hi

/-- A path that reaches a scalar reads as a value of its type. -/
theorem Reaches.exists_resolveBelow (h : R.Reaches t names s) {values? : Option (List (Value ι))}
    (hvalues : R.ConformIfPresent t values?) (path : String) :
    ∃ v, R.resolveBelow path t values? names = .ok v ∧ s.admits v = true := by
  induction h generalizing values? with
  | @scalar t name field s hfield htype =>
    refine ⟨_, resolveBelow_leaf hfield htype values?, ?_⟩
    cases hv : R.fieldIn? t values? name with
    | none => exact s.admits_zero
    | some v =>
      have hc := conforms_of_fieldIn? hvalues hfield hv
      rwa [htype, conforms] at hc
  | through hfield htype hnames ih =>
    rw [resolveBelow_below hfield htype hnames.ne_nil]
    exact ih (conformIfPresent_inner hvalues hfield htype)

/-- The sort key of a record is the value that its path reads as. -/
theorem Reaches.sortValue_eq {path : FieldPath} (hs : R.Reaches t path.segments s)
    {values : List (Value ι)} (hvalues : fieldsConform R.describe (R.describe t).fields values = true)
    (kind : Kind ι) :
    R.resolveBelow path.text t (some values) path.segments =
        .ok (R.sortValue t values path kind) ∧
      s.admits (R.sortValue t values path kind) = true := by
  obtain ⟨v, hv, hadmits⟩ := hs.exists_resolveBelow (conformIfPresent_some hvalues) path.text
  have hsort : R.sortValue t values path kind = v := by
    have hnull := Scalar.ne_null_of_admits hadmits
    unfold sortValue
    rw [hv]
    cases v <;> first | exact absurd rfl hnull | rfl
  rw [hsort]
  exact ⟨hv, hadmits⟩

end Registry

end RecordQuery
