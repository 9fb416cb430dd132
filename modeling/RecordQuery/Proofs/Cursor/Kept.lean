import RecordQuery.Cursor.Projection
import RecordQuery.Proofs.Resolve.SortKey

/-!
# What is left of a record under paths

`keepFields` goes through the fields of a record and says what is left of it under a list of paths:
the scalars that paths end at, the records on the way to them, and the default of everything else.
Copying a path into such a record adds the path to the list, whether or not it shares its beginning
with other paths, and what is left reads like the record along every path. The default records must
hold zero values, as a record created on the way would otherwise show where the source has none.
-/

namespace RecordQuery

/-- What follows a name in the paths that begin with it. -/
def namesBelow (name : String) (paths : List (List String)) : List (List String) :=
  paths.filterMap fun
    | [] => none
    | first :: names => if first = name then some names else none

section Below

variable {name name' : String} {names : List String} {paths : List (List String)}

/-- The paths below a name are the paths that begin with it, without it. -/
theorem mem_namesBelow_iff : names ∈ namesBelow name paths ↔ name :: names ∈ paths := by
  constructor
  · intro h
    obtain ⟨path, hpath, hnames⟩ := List.mem_filterMap.1 h
    split at hnames
    next => simp at hnames
    next first rest =>
      split at hnames
      next hfirst =>
        cases hnames
        exact hfirst ▸ hpath
      next => simp at hnames
  · intro h
    exact List.mem_filterMap.2 ⟨name :: names, h, if_pos rfl⟩

theorem namesBelow_append_self (paths : List (List String)) :
    namesBelow name (paths ++ [name :: names]) = namesBelow name paths ++ [names] := by
  simp [namesBelow]

theorem namesBelow_append_of_ne (hne : name' ≠ name) (paths : List (List String)) :
    namesBelow name' (paths ++ [name :: names]) = namesBelow name' paths := by
  simp [namesBelow, hne.symm]

end Below

variable {ι : Type} [DecidableEq ι] {R : Registry ι} {t u : ι} {name path : String}
  {names : List String} {paths : List (List String)} {s : Scalar}

omit [DecidableEq ι] in
theorem Scalar.convert?_eq_some_of_admits {v : Value ι} (h : s.admits v = true) :
    s.convert? v = some v := by
  rcases s.admits_cases h with ⟨rfl, b, rfl⟩ | ⟨rfl, text, rfl⟩ | ⟨type, n, rfl, ht, rfl⟩ |
    ⟨type, n, rfl, ht, rfl⟩ | ⟨type, x, rfl, rfl⟩
  · rfl
  · rfl
  · simp only [admits, ht, Bool.true_and] at h
    simp [convert?, ht, Number.toSigned?, h, Value.ofInteger, Value.ofSigned]
  · simp only [admits, ht, Bool.not_false, Bool.true_and] at h
    simp [convert?, ht, Number.toUnsigned?, h, Value.ofInteger, Value.ofUnsigned]
  · cases type with
    | double => rfl
    | single =>
      simp only [admits, beq_iff_eq] at h
      simp [convert?, Number.toDouble, h]

namespace Registry

/-- A value of a scalar's own type is assigned as it stands. -/
theorem assign_of_admits {v : Value ι} (h : s.admits v = true) (w : Value ι) :
    R.assign (.scalar s) w v = .ok v := by
  have hv := Scalar.ne_null_of_admits h
  unfold assign
  split
  · exact absurd rfl hv
  · rename_i htype
    obtain rfl := FieldType.scalar.inj htype
    rw [Scalar.convert?_eq_some_of_admits h]
  · rename_i hscalar
    exact absurd rfl (hscalar s)

section Keep

variable (R)

mutual

/-- What is left of a field, given what the paths through it go on with. -/
def keep : List (List String) → FieldType ι → Value ι → Value ι
  | paths, .scalar s, v => if [] ∈ paths then v else s.zero
  | paths, .embedded _, .record u fields =>
    .record u (keepFields paths (R.describe u).fields fields)
  | paths, .optional _, .record u fields =>
    if paths = [] then .null else .record u (keepFields paths (R.describe u).fields fields)
  | _, type, _ => type.zero R.default

/-- What is left of the fields of a record under a list of paths. -/
def keepFields : List (List String) → List (Field ι) → List (Value ι) → List (Value ι)
  | paths, field :: fields, v :: vs =>
    (match field.name? with
      | some name => keep (namesBelow name paths) field.type v
      | none => field.type.zero R.default) :: keepFields paths fields vs
  | _, _, _ => []

end

/-- What is left of a field of a record under the paths of the record. -/
def keepField (paths : List (List String)) (field : Field ι) (v : Value ι) : Value ι :=
  match field.name? with
  | some name => R.keep (namesBelow name paths) field.type v
  | none => field.type.zero R.default

variable {R}

mutual

/-- Where defaults are zero, a value of which no path is kept becomes the zero of its type. -/
theorem keep_nil (hdefault : R.DefaultsAreZero) : ∀ (type : FieldType ι) (v : Value ι),
    conforms R.describe type v = true → R.keep [] type v = type.zero R.default
  | .scalar s, v, _ => by rw [keep, if_neg List.not_mem_nil, FieldType.zero]
  | .embedded t, .record u fields, h => by
    simp only [conforms, Bool.and_eq_true, beq_iff_eq] at h
    rw [keep, keepFields_nil hdefault _ _ h.2, ← hdefault u, FieldType.zero, h.1]
  | .embedded _, .null, h | .embedded _, .bool _, h | .embedded _, .number _, h
  | .embedded _, .string _, h | .embedded _, .list _, h | .embedded _, .map _, h => by
    simp [conforms] at h
  | .optional _, v, _ => by cases v <;> simp [keep, FieldType.zero]
  | .repeated _, v, _ => by simp [keep, FieldType.zero]
  | .map .., v, _ => by simp [keep, FieldType.zero]

theorem keepFields_nil (hdefault : R.DefaultsAreZero) :
    ∀ (fields : List (Field ι)) (vs : List (Value ι)), fieldsConform R.describe fields vs = true →
      R.keepFields [] fields vs = fields.map fun field ↦ field.type.zero R.default
  | [], vs, _ => by rw [keepFields.eq_def]; rfl
  | _ :: _, [], h => by simp [fieldsConform] at h
  | field :: fields, v :: vs, h => by
    simp only [fieldsConform, Bool.and_eq_true] at h
    rw [keepFields, keepFields_nil hdefault fields vs h.2, List.map_cons]
    cases field.name? with
    | none => rfl
    | some name => exact congrArg (· :: _) (keep_nil hdefault field.type v h.1)

end

section Fields

variable {field : Field ι} {fields : List (Field ι)} {v : Value ι} {vs : List (Value ι)}
  {type : FieldType ι}

theorem keepFields_cons (paths : List (List String)) :
    R.keepFields paths (field :: fields) (v :: vs) =
      R.keepField paths field v :: R.keepFields paths fields vs := rfl

theorem keepField_of_name (hname : field.name? = some name) (paths : List (List String)) :
    R.keepField paths field v = R.keep (namesBelow name paths) field.type v := by
  rw [keepField, hname]

theorem keepField_append_of_ne (hname : field.name? ≠ some name) (paths : List (List String)) :
    R.keepField (paths ++ [name :: names]) field v = R.keepField paths field v := by
  unfold keepField
  split
  · rename_i first hfirst
    have hne : first ≠ name := fun h ↦ hname (h ▸ hfirst)
    rw [namesBelow_append_of_ne hne]
  · rfl

theorem fieldOf?_keepFields_eq_map (paths : List (List String)) (vs : List (Value ι)) :
    fieldOf? name fields (R.keepFields paths fields vs) =
      (fieldOf? name fields vs).map fun (type, v) ↦
        (type, R.keep (namesBelow name paths) type v) := by
  induction fields generalizing vs with
  | nil => cases vs <;> rfl
  | cons field fields ih =>
    cases vs with
    | nil => rfl
    | cons v vs =>
      rw [keepFields_cons, fieldOf?, fieldOf?]
      by_cases hname : field.name? = some name
      · rw [if_pos hname, if_pos hname, keepField_of_name hname]
        rfl
      · rw [if_neg hname, if_neg hname, ih]

/-- Keeping paths acts field by field: the field of a name keeps the paths below that name. -/
theorem fieldOf?_keepFields (hv : fieldOf? name fields vs = some (type, v))
    (paths : List (List String)) :
    fieldOf? name fields (R.keepFields paths fields vs) =
      some (type, R.keep (namesBelow name paths) type v) := by
  rw [fieldOf?_keepFields_eq_map, hv]
  rfl

theorem keepFields_append_of_forall_ne (hname : ∀ field ∈ fields, field.name? ≠ some name)
    (vs : List (Value ι)) :
    R.keepFields (paths ++ [name :: names]) fields vs = R.keepFields paths fields vs := by
  induction fields generalizing vs with
  | nil => rw [keepFields.eq_def, keepFields.eq_def]
  | cons field fields ih =>
    obtain ⟨hfield, hfields⟩ := List.forall_mem_cons.1 hname
    cases vs with
    | nil => rfl
    | cons v vs =>
      rw [keepFields_cons, keepFields_cons, keepField_append_of_ne hfield, ih hfields]

/-- One more path changes only the field that it begins with. -/
theorem keepFields_append (hnodup : (fields.filterMap Field.name?).Nodup)
    (hv : fieldOf? name fields vs = some (type, v)) :
    R.keepFields (paths ++ [name :: names]) fields vs =
      setField name (R.keep (namesBelow name paths ++ [names]) type v) fields
        (R.keepFields paths fields vs) := by
  fun_induction fieldOf? name fields vs with
  | case1 field fields w vs hname =>
    obtain ⟨rfl, rfl⟩ := Prod.mk.inj (Option.some.inj hv)
    rw [List.filterMap_cons_some hname, List.nodup_cons, List.mem_filterMap] at hnodup
    have hfields : ∀ other ∈ fields, other.name? ≠ some name :=
      fun other hother h ↦ hnodup.1 ⟨other, hother, h⟩
    rw [keepFields_cons, keepFields_cons, setField, if_pos hname, keepField_of_name hname,
      keepFields_append_of_forall_ne hfields, namesBelow_append_self]
  | case2 field fields w vs hname ih =>
    have hfields : (fields.filterMap Field.name?).Nodup :=
      hnodup.sublist ((List.sublist_cons_self field fields).filterMap _)
    rw [keepFields_cons, keepFields_cons, setField, if_neg hname, keepField_append_of_ne hname,
      ih hfields hv]
  | case3 => simp at hv

/-- The field of a record at some place, and what is left of it. -/
theorem getElem?_keepFields {i : Nat} (hfield : fields[i]? = some field)
    (hvs : fieldsConform R.describe fields vs = true) (paths : List (List String)) :
    ∃ v, conforms R.describe field.type v = true ∧
      (R.keepFields paths fields vs)[i]? = some (R.keepField paths field v) := by
  induction fields generalizing vs i with
  | nil => simp at hfield
  | cons first fields ih =>
    cases vs with
    | nil => simp [fieldsConform] at hvs
    | cons v vs =>
      simp only [fieldsConform, Bool.and_eq_true] at hvs
      rw [keepFields_cons]
      cases i with
      | zero =>
        cases hfield
        exact ⟨v, hvs.1, rfl⟩
      | succ i => exact ih hfield hvs.2

end Fields

mutual

/-- What is left depends only on which paths there are. -/
theorem keep_congr {paths paths' : List (List String)}
    (h : ∀ path, path ∈ paths ↔ path ∈ paths') :
    ∀ (type : FieldType ι) (v : Value ι), R.keep paths type v = R.keep paths' type v
  | .scalar s, v => by simp only [keep, h]
  | .embedded _, .record u inner => by rw [keep, keep, keepFields_congr h]
  | .optional _, .record u inner => by
    have hnil : paths = [] ↔ paths' = [] := by
      simp only [List.eq_nil_iff_forall_not_mem, h]
    simp only [keep, hnil, keepFields_congr h]
  | .embedded _, .null | .embedded _, .bool _ | .embedded _, .number _ | .embedded _, .string _
  | .embedded _, .list _ | .embedded _, .map _ | .optional _, .null | .optional _, .bool _
  | .optional _, .number _ | .optional _, .string _ | .optional _, .list _ | .optional _, .map _ => by
    simp [keep]
  | .repeated _, v | .map .., v => by simp [keep]

/-- Only the set of the paths matters to what is kept, neither their order nor their number. -/
theorem keepFields_congr {paths paths' : List (List String)}
    (h : ∀ path, path ∈ paths ↔ path ∈ paths') :
    ∀ (fields : List (Field ι)) (vs : List (Value ι)),
      R.keepFields paths fields vs = R.keepFields paths' fields vs
  | [], vs => by rw [keepFields.eq_def, keepFields.eq_def]
  | _ :: _, [] => rfl
  | field :: fields, v :: vs => by
    have hbelow (name : String) (names : List String) :
        names ∈ namesBelow name paths ↔ names ∈ namesBelow name paths' := by
      rw [mem_namesBelow_iff, mem_namesBelow_iff, h]
    rw [keepFields, keepFields, keepFields_congr h fields vs]
    cases field.name? with
    | none => rfl
    | some name => exact congrArg (· :: _) (keep_congr (hbelow name) field.type v)

end

/-- A field on the way of a path holds a record, or may be unset and is. -/
theorem record_or_null {type : FieldType ι} {v : Value ι}
    (htype : type = .embedded u ∨ type = .optional u) (hv : conforms R.describe type v = true) :
    (∃ inner, v = .record u inner ∧
      fieldsConform R.describe (R.describe u).fields inner = true) ∨
      type = .optional u ∧ v = .null := by
  rcases htype with rfl | rfl <;> cases v <;>
    simp only [conforms, Bool.and_eq_true, beq_iff_eq, Bool.false_eq_true] at hv
  · obtain ⟨rfl, hinner⟩ := hv
    exact .inl ⟨_, rfl, hinner⟩
  · exact .inr ⟨rfl, rfl⟩
  · obtain ⟨rfl, hinner⟩ := hv
    exact .inl ⟨_, rfl, hinner⟩

/-- The walk goes on with what was left of the record in a field. -/
theorem inner?_keep (hdefault : R.DefaultsAreZero) {type : FieldType ι} {inner : List (Value ι)}
    (htype : type = .embedded u ∨ type = .optional u)
    (hinner : fieldsConform R.describe (R.describe u).fields inner = true)
    (paths : List (List String)) :
    R.inner? type (R.keep paths type (.record u inner)) =
      some (u, R.keepFields paths (R.describe u).fields inner) := by
  rcases htype with rfl | rfl
  · rw [keep, inner?]
  · rw [keep]
    split
    · rename_i hpaths
      rw [inner?, hpaths, keepFields_nil hdefault _ _ hinner, ← hdefault u]
    · rfl

/-- A record that a path runs through stays a record, and keeps what the paths reach in it. -/
theorem keep_record {type : FieldType ι} {inner : List (Value ι)}
    (htype : type = .embedded u ∨ type = .optional u) (hpaths : paths ≠ []) :
    R.keep paths type (.record u inner) =
      .record u (R.keepFields paths (R.describe u).fields inner) := by
  rcases htype with rfl | rfl
  · rw [keep]
  · rw [keep, if_neg hpaths]

section Shape

variable {type : FieldType ι} {v : Value ι} {inner : List (Value ι)}

/-- What is left of a record is a record, except under no path where it may be unset. -/
theorem keep_record_cases (hv : conforms R.describe type (.record u inner) = true)
    (paths : List (List String)) :
    fieldsConform R.describe (R.describe u).fields inner = true ∧
      ((R.keep paths type (.record u inner) =
          .record u (R.keepFields paths (R.describe u).fields inner) ∧
        ((∀ w, type ≠ .optional w) ∨ paths ≠ [])) ∨
      R.keep paths type (.record u inner) = .null ∧ paths = []) := by
  obtain ⟨htype, hinner⟩ := embedded_or_optional_of_conforms hv
  refine ⟨hinner, ?_⟩
  rcases htype with rfl | rfl
  · exact .inl ⟨by rw [keep], .inl (by simp)⟩
  · by_cases hpaths : paths = []
    · exact .inr ⟨by rw [keep, if_pos hpaths], hpaths⟩
    · exact .inl ⟨by rw [keep, if_neg hpaths], .inr hpaths⟩

omit [DecidableEq ι] in
theorem exists_eq_record (h : valuesOf? v = some inner) : ∃ u, v = .record u inner := by
  cases v with
  | record u fields =>
    cases h
    exact ⟨u, rfl⟩
  | _ => simp [valuesOf?] at h

omit [DecidableEq ι] in
theorem valuesOf?_of_admits (hv : s.admits v = true) : valuesOf? v = none := by
  cases v with
  | record => cases s <;> simp [Scalar.admits] at hv
  | _ => rfl

/-- What is left of a value that is no record is none. -/
theorem valuesOf?_keep (hv : conforms R.describe type v = true) (hrecord : valuesOf? v = none)
    (paths : List (List String)) : valuesOf? (R.keep paths type v) = none := by
  cases type with
  | scalar s =>
    rw [keep]
    split
    · exact hrecord
    · exact valuesOf?_of_admits s.admits_zero
  | embedded | optional =>
    cases v with
    | record => simp [valuesOf?] at hrecord
    | null => simp [conforms, keep, FieldType.zero, valuesOf?] at hv ⊢
    | _ => simp [conforms] at hv
  | repeated | map => simp [keep, FieldType.zero, valuesOf?]

end Shape

/-- Copying a path into what is left of a record under some paths adds that path. -/
theorem Reaches.copyAlong_keepFields (hdefault : R.DefaultsAreZero) (h : R.Reaches t names s)
    {source : List (Value ι)}
    (hsource : fieldsConform R.describe (R.describe t).fields source = true)
    (paths : List (List String)) :
    R.copyAlong names t source (R.keepFields paths (R.describe t).fields source) =
      .ok (R.keepFields (paths ++ [names]) (R.describe t).fields source) := by
  induction h generalizing source paths with
  | @scalar t name field s hfield htype =>
    obtain ⟨v, hv, hadmits⟩ := exists_fieldOf? hsource hfield
    rw [htype, conforms] at hadmits
    rw [htype] at hv
    have hkeep : R.keep (namesBelow name paths ++ [[]]) (.scalar s) v = v := by
      rw [keep, if_pos (List.mem_append_right _ (List.mem_singleton_self _))]
    rw [keepFields_append (R.describe t).names_nodup hv, hkeep]
    simp [copyAlong, hv, fieldOf?_keepFields hv, assign_of_admits hadmits, Except.map]
  | @through t u name field names s hfield htype hnames ih =>
    obtain ⟨v, hv, hconforms⟩ := exists_fieldOf? hsource hfield
    have htarget := fieldOf?_keepFields (R := R) hv paths
    rw [keepFields_append (R.describe t).names_nodup hv]
    rcases record_or_null htype hconforms with ⟨inner, rfl, hinner⟩ | ⟨hoptional, rfl⟩
    · rw [keep_record htype (List.append_ne_nil_of_right_ne_nil _ (List.cons_ne_nil _ _))]
      simp [copyAlong, hv, htarget, hnames.ne_nil, inner?_keep hdefault htype hinner,
        ih hinner, Except.map]
    · -- where the source has no record nothing is copied
      have hkeep (paths : List (List String)) : R.keep paths field.type .null = .null := by
        rw [hoptional]
        rfl
      rw [hkeep] at htarget ⊢
      rw [setField_self htarget]
      simp [copyAlong, hv, htarget, hnames.ne_nil]

/-- What is left of a record reads like the record along each of the paths. -/
theorem Reaches.resolveBelow_keepFields (h : R.Reaches t names s) {source : List (Value ι)}
    (hsource : fieldsConform R.describe (R.describe t).fields source = true)
    (hpaths : names ∈ paths) :
    R.resolveBelow path t (some (R.keepFields paths (R.describe t).fields source)) names =
      R.resolveBelow path t (some source) names := by
  induction h generalizing source paths with
  | @scalar t name field s hfield htype =>
    obtain ⟨v, hv, -⟩ := exists_fieldOf? hsource hfield
    have hkeep : R.keep (namesBelow name paths) field.type v = v := by
      rw [htype, keep, if_pos (mem_namesBelow_iff.2 hpaths)]
    rw [resolveBelow_leaf hfield htype, resolveBelow_leaf hfield htype]
    simp only [fieldIn?, Option.bind_some, fieldOf?_keepFields hv, hkeep, hv]
  | @through t u name field names s hfield htype hnames ih =>
    obtain ⟨v, hv, hconforms⟩ := exists_fieldOf? hsource hfield
    have hbelow := mem_namesBelow_iff.2 hpaths
    rw [resolveBelow_below hfield htype hnames.ne_nil, resolveBelow_below hfield htype hnames.ne_nil]
    simp only [fieldIn?, Option.bind_some, fieldOf?_keepFields hv, hv, Option.map_some]
    rcases record_or_null htype hconforms with ⟨inner, rfl, hinner⟩ | ⟨hoptional, rfl⟩
    · rw [keep_record htype (List.ne_nil_of_mem hbelow)]
      exact ih hinner hbelow
    · rw [hoptional]
      rfl

end Keep

end Registry

end RecordQuery
