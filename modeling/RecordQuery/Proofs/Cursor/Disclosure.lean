import RecordQuery.Proofs.Cursor.Projection
import RecordQuery.Proofs.Outcome
import RecordQuery.Proofs.Record.Edit
import RecordQuery.Sample.Library

/-!
# What a projection discloses

A projection is decided by the keys of the order: by the values at the ends of its paths and by which
of the records on the way are set. Copying a path looks at nothing else, so records that agree along
every path have one projection. Everything off the paths has its default, and a projection agrees with
its record along the paths, so projecting it again changes nothing.
-/

namespace RecordQuery

/-- Whether one of the paths begins with the names. -/
def Passes (paths : List (List String)) (names : List String) : Prop :=
  ∃ path ∈ paths, names <+: path

section Passes

variable {name : String} {names path : List String} {paths : List (List String)}

theorem Passes.of_mem (hpath : path ∈ paths) (h : names <+: path) : Passes paths names :=
  ⟨path, hpath, h⟩

theorem passes_nil_iff : Passes paths [] ↔ paths ≠ [] := by
  simp [Passes, List.eq_nil_iff_forall_not_mem]

/-- Whether a path runs through a name is settled by the paths below that name. -/
theorem passes_cons_iff : Passes paths (name :: names) ↔ Passes (namesBelow name paths) names := by
  constructor
  · rintro ⟨path, hpath, rest, rfl⟩
    exact .of_mem (mem_namesBelow_iff.2 hpath) (List.prefix_append names rest)
  · rintro ⟨path, hpath, h⟩
    exact .of_mem (mem_namesBelow_iff.1 hpath) (List.cons_prefix_cons.2 ⟨rfl, h⟩)

end Passes

namespace Registry

variable {ι : Type} [DecidableEq ι] {R : Registry ι} {t u : ι} {name : String}
  {names : List String} {paths : List (List String)} {type : FieldType ι} {v : Value ι}
  {values values' inner : List (Value ι)} {s : Scalar}

section Reading

variable (R)

/-- Whether names lead in a record to an embedded record that may be unset and is set. -/
def IsSetAt (names : List String) (t : ι) (values : List (Value ι)) : Prop :=
  ∃ u inner, R.fieldAt? names t values = some (.optional u, .record u inner)

/-- Whether two records have one value at the end of a path, and the same records set on the way. -/
def AgreeAlong (path : List String) (t : ι) (values values' : List (Value ι)) : Prop :=
  R.fieldAt? path t values = R.fieldAt? path t values' ∧
    ∀ names, names <+: path → (R.IsSetAt names t values ↔ R.IsSetAt names t values')

/-- The record that names lead to; no names lead to the record itself. -/
def recordAt? : List String → ι → List (Value ι) → Option (ι × List (Value ι))
  | [], t, values => some (t, values)
  | name :: names, t, values =>
    match fieldOf? name (R.describe t).fields values with
    | some (_, .record u inner) => recordAt? names u inner
    | _ => none

/-- Whether every field has its default that is on no path, in a record and in all records that it
embeds. A field that cannot be queried is on no path. -/
def IsDefaultOff (paths : List (List String)) (t : ι) (values : List (Value ι)) : Prop :=
  ∀ names u inner, R.recordAt? names t values = some (u, inner) →
    ∀ (i : Nat) (field : Field ι), (R.describe u).fields[i]? = some field →
      (∀ name, field.name? = some name → ¬ Passes paths (names ++ [name])) →
        inner[i]? = (R.default u)[i]?

variable {R}

theorem fieldAt?_cons_of_valuesOf? (hne : names ≠ []) (hrecord : valuesOf? v = none)
    (hv : fieldOf? name (R.describe t).fields values = some (type, v)) :
    R.fieldAt? (name :: names) t values = none := by
  cases v with
  | record => simp [valuesOf?] at hrecord
  | _ => simp [fieldAt?, hv, hne]

theorem isSetAt_cons_of_record (hne : names ≠ [])
    (hv : fieldOf? name (R.describe t).fields values = some (type, .record u inner)) :
    R.IsSetAt (name :: names) t values ↔ R.IsSetAt names u inner := by
  rw [IsSetAt, IsSetAt, fieldAt?_cons_of_record hne hv]

theorem exists_record_of_recordAt? {w : ι}
    (h : R.recordAt? (name :: names) t values = some (w, inner)) :
    ∃ type u outer, fieldOf? name (R.describe t).fields values = some (type, .record u outer) ∧
      R.recordAt? names u outer = some (w, inner) := by
  rw [recordAt?] at h
  split at h
  next type u outer hv => exact ⟨type, u, outer, hv, h⟩
  next => simp at h

/-- Names that lead through something else than a record lead to nothing that is set. -/
theorem not_isSetAt_of_valuesOf? (hrecord : valuesOf? v = none)
    (hv : fieldOf? name (R.describe t).fields values = some (type, v)) :
    ¬ R.IsSetAt (name :: names) t values := by
  rintro ⟨u, inner, h⟩
  cases v with
  | record => simp [valuesOf?] at hrecord
  | _ =>
    rw [fieldAt?, hv] at h
    dsimp only at h
    split at h
    · cases h
    · cases h

end Reading

section Agreement

/-- Records that agree along a path have, under its first name, records that agree along the rest of
it. -/
theorem AgreeAlong.below {inner' : List (Value ι)} (hne : names ≠ []) {type' : FieldType ι}
    (hv : fieldOf? name (R.describe t).fields values = some (type, .record u inner))
    (hv' : fieldOf? name (R.describe t).fields values' = some (type', .record u inner'))
    (h : R.AgreeAlong (name :: names) t values values') : R.AgreeAlong names u inner inner' := by
  obtain ⟨hleaf, hset⟩ := h
  rw [fieldAt?_cons_of_record hne hv, fieldAt?_cons_of_record hne hv'] at hleaf
  refine ⟨hleaf, fun front hfront ↦ ?_⟩
  cases front with
  | nil => simp [IsSetAt, fieldAt?]
  | cons first front =>
    have hset := hset _ (List.cons_prefix_cons.2 ⟨rfl, hfront⟩)
    rwa [isSetAt_cons_of_record (List.cons_ne_nil _ _) hv,
      isSetAt_cons_of_record (List.cons_ne_nil _ _) hv'] at hset

/-- The record that a field on the way of a path holds, or the default one. -/
theorem exists_inner? (htype : type = .embedded u ∨ type = .optional u)
    (hv : conforms R.describe type v = true) :
    ∃ inner, R.inner? type v = some (u, inner) ∧
      fieldsConform R.describe (R.describe u).fields inner = true := by
  rcases record_or_null htype hv with ⟨inner, rfl, hinner⟩ | ⟨rfl, rfl⟩
  · rcases htype with rfl | rfl <;> exact ⟨inner, rfl, hinner⟩
  · exact ⟨R.default u, rfl, R.default_conforms u⟩

/-- Copying a path looks at nothing but what is read along it. -/
theorem Reaches.copyAlong_congr (h : R.Reaches t names s) {target : List (Value ι)}
    (hvalues : fieldsConform R.describe (R.describe t).fields values = true)
    (hvalues' : fieldsConform R.describe (R.describe t).fields values' = true)
    (htarget : fieldsConform R.describe (R.describe t).fields target = true)
    (hagree : R.AgreeAlong names t values values') :
    R.copyAlong names t values target = R.copyAlong names t values' target := by
  induction h generalizing values values' target with
  | @scalar t name field s hfield htype =>
    obtain ⟨v, hv, -⟩ := exists_fieldOf? hvalues hfield
    have hv' := hagree.1
    rw [fieldAt?_singleton, fieldAt?_singleton, hv] at hv'
    simp only [copyAlong, hv, ← hv']
  | @through t u name field names s hfield htype hnames ih =>
    obtain ⟨v, hv, hconforms⟩ := exists_fieldOf? hvalues hfield
    obtain ⟨v', hv', hconforms'⟩ := exists_fieldOf? hvalues' hfield
    obtain ⟨w, hw, hconformsTarget⟩ := exists_fieldOf? htarget hfield
    obtain ⟨made, hinner?, hmade⟩ := exists_inner? htype hconformsTarget
    have hset : R.IsSetAt [name] t values ↔ R.IsSetAt [name] t values' :=
      hagree.2 [name] (List.prefix_append [name] names)
    simp only [IsSetAt, fieldAt?_singleton, hv, hv'] at hset
    rcases record_or_null htype hconforms with ⟨inner, rfl, hinner⟩ | ⟨hoptional, rfl⟩ <;>
      rcases record_or_null htype hconforms' with ⟨inner', rfl, hinner'⟩ | ⟨hoptional', rfl⟩
    · have hcopy := ih hinner hinner' hmade (hagree.below hnames.ne_nil hv hv')
      simp only [copyAlong, hv, hv', hw, hinner?, hcopy, List.isEmpty_iff, hnames.ne_nil, if_false]
    · simp [hoptional'] at hset
    · simp [hoptional] at hset
    · simp only [copyAlong, hv, hv']

end Agreement

section Kept

variable {field : Field ι} {fields : List (Field ι)}

/-- In what is left of a record, those records are set that are set in it and on a path. -/
theorem isSetAt_keepFields_iff (names : List String)
    (hvalues : fieldsConform R.describe (R.describe t).fields values = true) :
    R.IsSetAt names t (R.keepFields paths (R.describe t).fields values) ↔
      Passes paths names ∧ R.IsSetAt names t values := by
  induction names generalizing t values paths with
  | nil => simp [IsSetAt, fieldAt?]
  | cons name names ih =>
    rw [passes_cons_iff]
    cases hv : fieldOf? name (R.describe t).fields values with
    | none =>
      have hkeep : fieldOf? name (R.describe t).fields
          (R.keepFields paths (R.describe t).fields values) = none := by
        rw [fieldOf?_keepFields_eq_map, hv]
        rfl
      simp [IsSetAt, fieldAt?, hv, hkeep]
    | some field =>
      obtain ⟨type, v⟩ := field
      have hkeep := fieldOf?_keepFields (R := R) hv paths
      have hconforms := conforms_of_fieldOf? hvalues hv
      cases hrecord : valuesOf? v with
      | none =>
        have hkept := valuesOf?_keep hconforms hrecord (namesBelow name paths)
        simp [not_isSetAt_of_valuesOf? hkept hkeep, not_isSetAt_of_valuesOf? hrecord hv]
      | some inner =>
        obtain ⟨u, rfl⟩ := exists_eq_record hrecord
        obtain ⟨hinner, ⟨hrecord, hset⟩ | ⟨hnull, hpaths⟩⟩ :=
          keep_record_cases hconforms (namesBelow name paths)
        · rw [hrecord] at hkeep
          by_cases hne : names = []
          · subst hne
            rw [passes_nil_iff, IsSetAt, IsSetAt, fieldAt?_singleton, fieldAt?_singleton, hkeep, hv]
            rcases hset with htype | hpaths
            · simp [htype]
            · simp [hpaths]
          · rw [isSetAt_cons_of_record hne hkeep, isSetAt_cons_of_record hne hv, ih hinner]
        · rw [hnull] at hkeep
          simp [not_isSetAt_of_valuesOf? rfl hkeep, hpaths, Passes]

/-- A kept path reads from the projection what it reads from the record. -/
theorem Reaches.fieldAt?_keepFields (h : R.Reaches t names s)
    (hvalues : fieldsConform R.describe (R.describe t).fields values = true)
    (hpaths : names ∈ paths) :
    R.fieldAt? names t (R.keepFields paths (R.describe t).fields values) =
      R.fieldAt? names t values := by
  induction h generalizing values paths with
  | @scalar t name field s hfield htype =>
    obtain ⟨v, hv, -⟩ := exists_fieldOf? hvalues hfield
    have hkeep : R.keep (namesBelow name paths) field.type v = v := by
      rw [htype, keep, if_pos (mem_namesBelow_iff.2 hpaths)]
    rw [fieldAt?_singleton, fieldAt?_singleton, fieldOf?_keepFields hv, hkeep, hv]
  | @through t u name field names s hfield htype hnames ih =>
    obtain ⟨v, hv, hconforms⟩ := exists_fieldOf? hvalues hfield
    have hbelow := mem_namesBelow_iff.2 hpaths
    have hkeep := fieldOf?_keepFields (R := R) hv paths
    rcases record_or_null htype hconforms with ⟨inner, rfl, hinner⟩ | ⟨hoptional, rfl⟩
    · rw [keep_record htype (List.ne_nil_of_mem hbelow)] at hkeep
      rw [fieldAt?_cons_of_record hnames.ne_nil hkeep, fieldAt?_cons_of_record hnames.ne_nil hv,
        ih hinner hbelow]
    · have hkept := valuesOf?_keep hconforms rfl (namesBelow name paths)
      rw [fieldAt?_cons_of_valuesOf? hnames.ne_nil hkept hkeep,
        fieldAt?_cons_of_valuesOf? hnames.ne_nil rfl hv]

/-- What is left of a record agrees with it along each of the paths. -/
theorem Reaches.agreeAlong_keepFields (h : R.Reaches t names s)
    (hvalues : fieldsConform R.describe (R.describe t).fields values = true)
    (hpaths : names ∈ paths) :
    R.AgreeAlong names t (R.keepFields paths (R.describe t).fields values) values := by
  refine ⟨h.fieldAt?_keepFields hvalues hpaths, fun front hfront ↦ ?_⟩
  rw [isSetAt_keepFields_iff front hvalues]
  exact and_iff_right (.of_mem hpaths hfront)

/-- A record in what is left of a record is what is left of a record in it. -/
theorem recordAt?_keepFields
    (hvalues : fieldsConform R.describe (R.describe t).fields values = true)
    (h : R.recordAt? names t (R.keepFields paths (R.describe t).fields values) = some (u, inner)) :
    ∃ paths' source, inner = R.keepFields paths' (R.describe u).fields source ∧
      fieldsConform R.describe (R.describe u).fields source = true ∧
      ∀ rest, Passes paths' rest ↔ Passes paths (names ++ rest) := by
  induction names generalizing t values paths with
  | nil =>
    cases h
    exact ⟨paths, values, rfl, hvalues, fun _ ↦ Iff.rfl⟩
  | cons name names ih =>
    obtain ⟨type, w, kept, hkept, h⟩ := exists_record_of_recordAt? h
    rw [fieldOf?_keepFields_eq_map] at hkept
    obtain ⟨⟨type, v⟩, hv, heq⟩ := Option.map_eq_some_iff.1 hkept
    obtain ⟨rfl, hkeep⟩ := Prod.mk.inj heq
    have hconforms := conforms_of_fieldOf? hvalues hv
    cases hrecord : valuesOf? v with
    | none =>
      have hnone := valuesOf?_keep hconforms hrecord (namesBelow name paths)
      simp [hkeep, valuesOf?] at hnone
    | some source =>
      obtain ⟨w', rfl⟩ := exists_eq_record hrecord
      obtain ⟨hsource, ⟨hrecord, -⟩ | ⟨hnull, -⟩⟩ :=
        keep_record_cases hconforms (namesBelow name paths)
      · cases hkeep.symm.trans hrecord
        obtain ⟨paths', source', rfl, hsource', hpasses⟩ := ih hsource h
        refine ⟨paths', source', rfl, hsource', fun rest ↦ ?_⟩
        rw [hpasses, List.cons_append, passes_cons_iff]
      · cases hkeep.symm.trans hnull

/-- Off the paths nothing but the default is left. -/
theorem keepField_of_not_passes (hdefault : R.DefaultsAreZero)
    (hv : conforms R.describe field.type v = true)
    (hoff : ∀ name, field.name? = some name → ¬ Passes paths [name]) :
    R.keepField paths field v = field.type.zero R.default := by
  unfold keepField
  split
  next name hname =>
    have hpaths : namesBelow name paths = [] := by
      have hoff := hoff name hname
      rwa [passes_cons_iff, passes_nil_iff, not_not] at hoff
    rw [hpaths, keep_nil hdefault _ _ hv]
  next => rfl

/-- Whatever no kept path runs through is the default in the projection, hidden fields included. -/
theorem isDefaultOff_keepFields (hdefault : R.DefaultsAreZero)
    (hvalues : fieldsConform R.describe (R.describe t).fields values = true)
    (paths : List (List String)) :
    R.IsDefaultOff paths t (R.keepFields paths (R.describe t).fields values) := by
  intro names u inner h i field hfield hoff
  obtain ⟨paths', source, rfl, hsource, hpasses⟩ := recordAt?_keepFields hvalues h
  obtain ⟨v, hv, hkept⟩ := getElem?_keepFields hfield hsource paths'
  have hzero : R.keepField paths' field v = field.type.zero R.default := by
    apply keepField_of_not_passes hdefault hv
    intro name hname
    rw [hpasses]
    exact hoff name hname
  rw [hkept, hzero, hdefault u, List.getElem?_map, hfield]
  rfl

end Kept

end Registry

namespace Record

variable {ι : Type} [DecidableEq ι] {R : Registry ι} {t : ι} {r s : Record R t} {order : Order}
  {c : Comparator R t}

/-- Copying along a path depends on the source only through what the path copies. -/
theorem copy_congr {target : Record R t} {path : FieldPath}
    (h : R.copyAlong path.segments t r.fields target.fields =
      R.copyAlong path.segments t s.fields target.fields) :
    r.copy target path = s.copy target path := by
  unfold copy
  split
  next made hmade =>
    split
    next made' hmade' =>
      cases hmade.symm.trans (h.trans hmade')
      rfl
    next e he => cases hmade.symm.trans (h.trans he)
  next e he =>
    split
    next made' hmade' => cases he.symm.trans (h.trans hmade')
    next e' he' =>
      cases he.symm.trans (h.trans he')
      rfl

/-- Records that agree along the paths of some keys have one copy of these keys. -/
theorem foldlM_copy_congr {keys : List OrderKey}
    (hkeys : ∀ key ∈ keys, ∃ k, R.Reaches t key.path.segments k)
    (hagree : ∀ key ∈ keys, R.AgreeAlong key.path.segments t r.fields s.fields)
    (target : Record R t) :
    keys.foldlM (fun target key ↦ r.copy target key.path) target =
      keys.foldlM (fun target key ↦ s.copy target key.path) target := by
  induction keys generalizing target with
  | nil => rfl
  | cons key keys ih =>
    obtain ⟨⟨k, hk⟩, hkeys⟩ := List.forall_mem_cons.1 hkeys
    obtain ⟨hfirst, hagree⟩ := List.forall_mem_cons.1 hagree
    have hcopy := hk.copyAlong_congr r.fields_conform s.fields_conform target.fields_conform hfirst
    rw [List.foldlM_cons, List.foldlM_cons, copy_congr hcopy]
    exact bind_congr (ih hkeys hagree)

/-- Records that agree on the keys of an order have one projection. -/
theorem project_congr (hc : order.compile R t = .ok c)
    (hagree : ∀ path ∈ order.paths, R.AgreeAlong path t r.fields s.fields) :
    r.project order = s.project order := by
  have hkeys := Order.exists_compile_iff.1 ⟨c, hc⟩
  rw [project, project, hc]
  exact foldlM_copy_congr hkeys (fun key hkey ↦ hagree _ (List.mem_map_of_mem hkey)) default

theorem exists_project_of_compile (hdefault : R.DefaultsAreZero) (hc : order.compile R t = .ok c)
    (r : Record R t) : ∃ p, r.project order = .ok p ∧
      p.fields = R.keepFields order.paths (R.describe t).fields r.fields := by
  obtain rfl := Order.order_compile hc
  exact c.exists_project_keepFields hdefault r

/-- A projection depends neither on the order of the keys nor on their directions. -/
theorem project_eq_of_paths (hdefault : R.DefaultsAreZero) {order' : Order}
    (hc : order.compile R t = .ok c) (hpaths : ∀ path, path ∈ order'.paths ↔ path ∈ order.paths)
    (r : Record R t) : r.project order' = r.project order := by
  have hreaches := Order.exists_compile_iff.1 ⟨c, hc⟩
  obtain ⟨c', hc'⟩ : ∃ c', order'.compile R t = .ok c' := by
    rw [Order.exists_compile_iff]
    intro key' hkey'
    obtain ⟨key, hkey, hpath⟩ := List.mem_map.1 ((hpaths _).1 (List.mem_map_of_mem hkey'))
    exact hpath ▸ hreaches key hkey
  obtain ⟨p, hp, hfields⟩ := exists_project_of_compile hdefault hc r
  obtain ⟨p', hp', hfields'⟩ := exists_project_of_compile hdefault hc' r
  have heq : p' = p := by
    rw [Registry.keepFields_congr hpaths, ← hfields] at hfields'
    cases p'
    cases hfields'
    rfl
  rw [hp, hp', heq]

/-- A projection is decided by the keys of the order and holds nothing else. -/
theorem project_discloses_keys (hdefault : R.DefaultsAreZero) (hc : order.compile R t = .ok c) :
    (∀ r s : Record R t, (∀ path ∈ order.paths, R.AgreeAlong path t r.fields s.fields) →
      r.project order = s.project order) ∧
    ∀ r : Record R t, ∃ p, r.project order = .ok p ∧
      R.IsDefaultOff order.paths t p.fields ∧
      (∀ names, R.IsSetAt names t p.fields ↔
        Passes order.paths names ∧ R.IsSetAt names t r.fields) ∧
      p.project order = .ok p ∧
      ∀ order' : Order, order'.keys.Perm order.keys → r.project order' = .ok p := by
  refine ⟨fun r s ↦ project_congr hc, ?_⟩
  intro r
  obtain ⟨p, hp, hfields⟩ := exists_project_of_compile hdefault hc r
  refine ⟨p, hp, ?off, ?set, ?again, ?order⟩
  case off =>
    rw [hfields]
    exact Registry.isDefaultOff_keepFields hdefault r.fields_conform order.paths
  case set =>
    intro names
    rw [hfields]
    exact Registry.isSetAt_keepFields_iff names r.fields_conform
  case again =>
    rw [← hp]
    apply project_congr hc
    intro path hpath
    obtain ⟨key, hkey, rfl⟩ := List.mem_map.1 hpath
    obtain ⟨k, hk⟩ := Order.exists_compile_iff.1 ⟨c, hc⟩ key hkey
    rw [hfields]
    exact hk.agreeAlong_keepFields r.fields_conform hpath
  case order =>
    intro order' hperm
    rw [← hp]
    apply project_eq_of_paths hdefault hc
    intro path
    exact (hperm.map _).mem_iff

section Example

open Sample

/-- A key below a record that may be unset. -/
private def byZip : Order where
  keys := [⟨⟨["hq", "zip"], by simp, by decide⟩, .desc⟩]
  nodup := by decide

/-- A publisher of some name, at one place in some city. -/
private def situated (name city : String) : Record library .publisher :=
  ⟨[.string name, .ofUnsigned 0,
    .record .address [.string city, .string "170",
      .record .geo [.number (.float (.zero .binary64 false)),
        .number (.float (.zero .binary64 false))]]], rfl⟩

/-- Neither the names nor the cities of two publishers at one place are in the projection. -/
theorem project_discloses_keys_situated :
    ∃ p, (situated "Atlas" "Quito").project byZip = .ok p ∧
      (situated "Condor" "Ibarra").project byZip = .ok p ∧
      library.IsDefaultOff byZip.paths .publisher p.fields := by
  obtain ⟨c, hc⟩ := Outcome.exists_eq_ok_of_isOk
    (x := byZip.compile library .publisher) (by decide +kernel)
  obtain ⟨hcongr, hproject⟩ := project_discloses_keys library_defaultsAreZero hc
  obtain ⟨p, hp, hoff, -⟩ := hproject (situated "Atlas" "Quito")
  refine ⟨p, hp, ?_, hoff⟩
  rw [← hp]
  apply hcongr
  intro path hpath
  obtain rfl : path = ["hq", "zip"] := by simpa [Order.paths, byZip] using hpath
  refine ⟨rfl, fun names hnames ↦ ?_⟩
  simp only [List.prefix_cons_iff, List.prefix_nil, exists_eq_right] at hnames
  obtain rfl | ⟨_, rfl, rfl | ⟨_, rfl, rfl⟩⟩ := hnames
  · exact Iff.rfl
  · exact iff_of_true ⟨_, _, rfl⟩ ⟨_, _, rfl⟩
  · exact Iff.rfl

end Example

end Record

end RecordQuery
