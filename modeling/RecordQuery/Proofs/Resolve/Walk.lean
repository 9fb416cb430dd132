import RecordQuery.Proofs.Resolve.SortKey

/-!
# One step of a resolution

What the resolver does at the first name of a path is decided by the type of the field: the path
ends there, goes on in the embedded record, goes on in every element of a repeated field, or is
refused whatever the record holds.
-/

namespace RecordQuery

/-- What a field of a record that is not set reads as at the end of a path. -/
def FieldType.absent {ι : Type} : FieldType ι → Value ι
  | scalar s => s.zero
  | embedded _ | optional _ => .null
  | repeated _ => .list []
  | map .. => .map []

/-- What a path that goes on below a field of some type does. -/
theorem FieldType.below_cases {ι : Type} (type : FieldType ι) :
    (∃ u, type = .embedded u ∨ type = .optional u) ∨ (∃ u, type = .repeated (.record u)) ∨
      ∀ u, type ≠ .embedded u ∧ type ≠ .optional u ∧ type ≠ .repeated (.record u) := by
  cases type with
  | embedded u => exact .inl ⟨u, .inl rfl⟩
  | optional u => exact .inl ⟨u, .inr rfl⟩
  | scalar s => exact .inr (.inr fun u ↦ ⟨nofun, nofun, nofun⟩)
  | map key e => exact .inr (.inr fun u ↦ ⟨nofun, nofun, nofun⟩)
  | repeated e =>
    cases e with
    | scalar s => exact .inr (.inr fun u ↦ ⟨nofun, nofun, nofun⟩)
    | record u => exact .inr (.inl ⟨u, rfl⟩)

namespace Registry

variable {ι : Type} [DecidableEq ι] (R : Registry ι)

/-- The elements of a repeated field, of which an absent one has none. -/
def elements {ι : Type} : Option (Value ι) → List (Value ι)
  | some (.list items) => items
  | _ => []

/-- What names resolve to in one element of a repeated field, and null where they do not resolve. -/
def resolveIn (path : String) (u : ι) (names : List String) (item : Value ι) : Value ι :=
  ((valuesOf? item).bind fun values ↦
    (R.resolveBelow path u (some values) names).toOption).getD .null

variable {R} {t u : ι} {path name : String} {names : List String} {field : Field ι}

theorem resolveBelow_unknown (hfield : (R.describe t).field? name = none)
    (values? : Option (List (Value ι))) (names : List String) :
    R.resolveBelow path t values? (name :: names) =
      .error (.invalidFieldPath path (.unknownField name (R.nameOf t))) := by
  simp only [resolveBelow, hfield]

/-- At its end, a path gives the whole field. -/
theorem resolveBelow_end (hfield : (R.describe t).field? name = some field)
    (values? : Option (List (Value ι))) :
    R.resolveBelow path t values? [name] =
      .ok ((R.fieldIn? t values? name).getD field.type.absent) := by
  simp only [resolveBelow, hfield, List.isEmpty_nil, if_true]
  cases htype : field.type with
  | repeated e => cases e <;> rfl
  | _ => rfl

/-- A path that goes on below a repeated field of records is checked without data, and resolved in
every element. -/
theorem resolveBelow_scatter (hfield : (R.describe t).field? name = some field)
    (htype : field.type = .repeated (.record u)) (hne : names ≠ [])
    (values? : Option (List (Value ι))) :
    R.resolveBelow path t values? (name :: names) =
      (R.resolveBelow path u none names).map fun _ ↦
        .list ((elements (R.fieldIn? t values? name)).map (R.resolveIn path u names)) := by
  rw [resolveBelow.eq_def]
  simp only [hfield, htype, List.isEmpty_iff, hne, if_false]
  refine congrArg (Except.map · _) (funext fun _ ↦ congrArg Value.list ?_)
  exact List.map_congr_left fun item _ ↦ by cases item <;> rfl

/-- The elements of a repeated field have its element type. -/
theorem itemsConform_elements {values? : Option (List (Value ι))} {e : ElementType ι}
    (hvalues : R.ConformIfPresent t values?) (hfield : (R.describe t).field? name = some field)
    (htype : field.type = .repeated e) :
    itemsConform R.describe e.fieldType (elements (R.fieldIn? t values? name)) = true := by
  cases hv : R.fieldIn? t values? name with
  | none => rfl
  | some v =>
    have hconforms := conforms_of_fieldIn? hvalues hfield hv
    rw [htype] at hconforms
    cases v with
    | list items => rwa [conforms] at hconforms
    | _ => simp [conforms] at hconforms

/-- Scalars, maps and repeated scalars have nothing below them. -/
theorem exists_resolveBelow_error (path : String) (hfield : (R.describe t).field? name = some field)
    (htype : ∀ u, field.type ≠ .embedded u ∧ field.type ≠ .optional u ∧
      field.type ≠ .repeated (.record u)) (hne : names ≠ []) :
    ∃ e, ∀ values?, R.resolveBelow path t values? (name :: names) = .error e := by
  cases h : field.type with
  | scalar s =>
    refine ⟨.invalidFieldPath path (.belowScalar name), fun values? ↦ ?_⟩
    simp only [resolveBelow, hfield, h, List.isEmpty_iff, hne, if_false]
  | map key e =>
    refine ⟨.invalidFieldPath path (.belowMap name), fun values? ↦ ?_⟩
    simp only [resolveBelow, hfield, h, List.isEmpty_iff, hne, if_false]
  | embedded u => exact absurd h (htype u).1
  | optional u => exact absurd h (htype u).2.1
  | repeated e =>
    cases e with
    | scalar s =>
      refine ⟨.invalidFieldPath path (.belowRepeatedScalar name), fun values? ↦ ?_⟩
      simp only [resolveBelow, hfield, h, List.isEmpty_iff, hne, if_false]
    | record u => exact absurd h (htype u).2.2

end Registry

end RecordQuery
