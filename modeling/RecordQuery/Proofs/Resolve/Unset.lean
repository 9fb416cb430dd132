import RecordQuery.Proofs.Cursor.Projection
import RecordQuery.Proofs.Record.Edit
import RecordQuery.Proofs.Resolve.Walk

/-!
# Records that are not set

A record that is not set reads like the default record of its type, if that holds zero values: the
resolver goes on along the schema where there is no data, and finds for every field what the default
record holds. So a record in which unset records are replaced by default ones, at any depth, cannot
be told from the record as it was by what its paths resolve to, nor by an order, unless a path ends
at records and shows which of them are set.
-/

namespace RecordQuery

theorem Scalar.kind_ne_record {ι : Type} (s : Scalar) (u : ι) : s.kind ≠ .record u := by
  cases s with
  | integer t => cases t <;> exact nofun
  | bool | string | float => exact nofun

/-- Looking up a field in values that are made field by field. -/
theorem fieldOf?_map {ι : Type} {fields : List (Field ι)} {field : Field ι} {name : String}
    (f : Field ι → Value ι)
    (hfield : fields.find? (fun field ↦ field.name? == some name) = some field) :
    fieldOf? name fields (fields.map f) = some (field.type, f field) := by
  induction fields with
  | nil => simp at hfield
  | cons first fields ih =>
    rw [List.map_cons, fieldOf?]
    by_cases hname : first.name? = some name
    · obtain rfl : first = field := by simpa [hname] using hfield
      rw [if_pos hname]
    · rw [List.find?_cons_of_neg (by simpa using hname)] at hfield
      rw [if_neg hname, ih hfield]

namespace Registry

variable {ι : Type} [DecidableEq ι] (R : Registry ι)

/-- The type of the field that a path ends at. The schema alone decides it. -/
def typeAt? (R : Registry ι) : ι → List String → Option (FieldType ι)
  | _, [] => none
  | t, name :: names =>
    match (R.describe t).field? name with
    | none => none
    | some field =>
      if names.isEmpty then some field.type
      else
        match field.type with
        | .embedded u | .optional u | .repeated (.record u) => typeAt? R u names
        | _ => none

/-- Whether a path resolves in two records of a type to one value, or fails with one error, for
itself and as a side of a comparison. -/
def ReadsAlike (t : ι) (as bs : List (Value ι)) (names : List String) : Prop :=
  (∀ path, R.resolveBelow path t (some as) names = R.resolveBelow path t (some bs) names) ∧
    R.memberValue t as names = R.memberValue t bs names

/-- Whether a field is zero at every depth: scalars are, records that may be unset are, lists and maps
are empty. -/
def IsZeroBelow (t : ι) (name : String) (values : List (Value ι)) : Prop :=
  ∀ names type v, R.fieldAt? (name :: names) t values = some (type, v) →
    (∀ u, type ≠ .embedded u) → v = type.absent

mutual

/-- Whether the second of two values of a field is the first one with some of the records that are
not set replaced by default records, in which records may be set in turn. -/
inductive Filled : FieldType ι → Value ι → Value ι → Prop
  | same (type : FieldType ι) (v : Value ι) : Filled type v v
  | created {t : ι} {values : List (Value ι)}
      (h : FieldsFilled (R.describe t).fields (R.default t) values) :
      Filled (.optional t) .null (.record t values)
  | record {type : FieldType ι} {t : ι} {as bs : List (Value ι)}
      (htype : type = .embedded t ∨ type = .optional t)
      (h : FieldsFilled (R.describe t).fields as bs) : Filled type (.record t as) (.record t bs)
  | list {e : ElementType ι} {as bs : List (Value ι)} (h : ItemsFilled e.fieldType as bs) :
      Filled (.repeated e) (.list as) (.list bs)
  | map {key : KeyType} {e : ElementType ι} {as bs : List (Value ι × Value ι)}
      (h : PairsFilled e.fieldType as bs) : Filled (.map key e) (.map as) (.map bs)

/-- Whether records are filled in field by field. -/
inductive FieldsFilled : List (Field ι) → List (Value ι) → List (Value ι) → Prop
  | nil : FieldsFilled [] [] []
  | cons {field : Field ι} {fields : List (Field ι)} {a b : Value ι} {as bs : List (Value ι)}
      (h : Filled field.type a b) (hs : FieldsFilled fields as bs) :
      FieldsFilled (field :: fields) (a :: as) (b :: bs)

inductive ItemsFilled : FieldType ι → List (Value ι) → List (Value ι) → Prop
  | nil {type : FieldType ι} : ItemsFilled type [] []
  | cons {type : FieldType ι} {a b : Value ι} {as bs : List (Value ι)} (h : Filled type a b)
      (hs : ItemsFilled type as bs) : ItemsFilled type (a :: as) (b :: bs)

inductive PairsFilled : FieldType ι → List (Value ι × Value ι) → List (Value ι × Value ι) → Prop
  | nil {type : FieldType ι} : PairsFilled type [] []
  | cons {type : FieldType ι} {k a b : Value ι} {as bs : List (Value ι × Value ι)}
      (h : Filled type a b) (hs : PairsFilled type as bs) :
      PairsFilled type ((k, a) :: as) ((k, b) :: bs)

end

variable {R} {t u : ι} {name path : String} {names : List String} {field : Field ι} {s : Scalar}

section Ends

theorem typeAt?_singleton (hfield : (R.describe t).field? name = some field) :
    R.typeAt? t [name] = some field.type := by
  simp only [typeAt?, hfield, List.isEmpty_nil, if_true]

theorem typeAt?_below (hfield : (R.describe t).field? name = some field)
    (htype : field.type = .embedded u ∨ field.type = .optional u) (hne : names ≠ []) :
    R.typeAt? t (name :: names) = R.typeAt? u names := by
  rcases htype with htype | htype <;>
    simp only [typeAt?, hfield, htype, List.isEmpty_iff, hne, if_false]

theorem typeAt?_scatter (hfield : (R.describe t).field? name = some field)
    (htype : field.type = .repeated (.record u)) (hne : names ≠ []) :
    R.typeAt? t (name :: names) = R.typeAt? u names := by
  simp only [typeAt?, hfield, htype, List.isEmpty_iff, hne, if_false]

theorem Reaches.typeAt?_eq (h : R.Reaches t names s) : R.typeAt? t names = some (.scalar s) := by
  induction h with
  | scalar hfield htype => rw [typeAt?_singleton hfield, htype]
  | through hfield htype hnames ih => rw [typeAt?_below hfield htype hnames.ne_nil, ih]

theorem ReadsAlike.of_resolveBelow {as bs : List (Value ι)}
    (h : ∀ path, R.resolveBelow path t (some as) names = R.resolveBelow path t (some bs) names) :
    R.ReadsAlike t as bs names := by
  refine ⟨h, ?_⟩
  cases names with
  | nil => rfl
  | cons name names => simp only [memberValue, h]

end Ends

section Zero

variable {values inner : List (Value ι)} {type : FieldType ι} {first : String}

/-- A record embedded in a zero field is zero below each of its names. -/
theorem IsZeroBelow.of_embedded (h : R.IsZeroBelow t name values)
    (hv : fieldOf? name (R.describe t).fields values = some (type, .record u inner))
    (first : String) : R.IsZeroBelow u first inner := by
  intro names below w hw
  rw [← fieldAt?_cons_of_record (List.cons_ne_nil _ _) hv] at hw
  exact h _ _ _ hw

/-- A field that is zero reads as in a record that is not set. The induction is on the names below the
field: they pass through records that are always present, all others being unset. -/
theorem IsZeroBelow.resolveBelow_eq (h : R.IsZeroBelow t name values)
    (hvalues : fieldsConform R.describe (R.describe t).fields values = true)
    (hend : ∀ u, R.typeAt? t (name :: names) ≠ some (.embedded u)) (path : String) :
    R.resolveBelow path t (some values) (name :: names) =
      R.resolveBelow path t none (name :: names) := by
  induction names generalizing t name values with
  | nil =>
    cases hfield : (R.describe t).field? name with
    | none => rw [resolveBelow_unknown hfield, resolveBelow_unknown hfield]
    | some field =>
      obtain ⟨v, hv, -⟩ := exists_fieldOf? hvalues hfield
      rw [typeAt?_singleton hfield] at hend
      have hzero : v = field.type.absent :=
        h [] _ _ (fieldAt?_singleton.trans hv) fun u htype ↦ hend u (congrArg some htype)
      rw [resolveBelow_end hfield, resolveBelow_end hfield, fieldIn?_of_fieldOf? hv, hzero]
      rfl
  | cons first names ih =>
    cases hfield : (R.describe t).field? name with
    | none => rw [resolveBelow_unknown hfield, resolveBelow_unknown hfield]
    | some field =>
      obtain ⟨v, hv, hconforms⟩ := exists_fieldOf? hvalues hfield
      have hzero := h [] _ _ (fieldAt?_singleton.trans hv)
      have hread := fieldIn?_of_fieldOf? hv
      have hne : first :: names ≠ [] := List.cons_ne_nil _ _
      rcases field.type.below_cases with ⟨u, htype⟩ | ⟨u, htype⟩ | htype
      · rw [typeAt?_below hfield htype hne] at hend
        rw [resolveBelow_below hfield htype hne, resolveBelow_below hfield htype hne, hread]
        rcases record_or_null htype hconforms with ⟨inner, rfl, hinner⟩ | ⟨-, rfl⟩
        · exact ih (h.of_embedded hv first) hinner hend
        · rfl
      · rw [resolveBelow_scatter hfield htype hne, resolveBelow_scatter hfield htype hne, hread,
          hzero (by simp [htype]), htype]
        rfl
      · obtain ⟨e, he⟩ := exists_resolveBelow_error path hfield htype hne
        rw [he, he]

end Zero

section Default

/-- What a default record holds in one of its fields. -/
theorem fieldOf?_default (hdefault : R.DefaultsAreZero)
    (hfield : (R.describe t).field? name = some field) :
    fieldOf? name (R.describe t).fields (R.default t) =
      some (field.type, field.type.zero R.default) := by
  rw [hdefault t]
  exact fieldOf?_map _ hfield

theorem isZeroBelow_default (hdefault : R.DefaultsAreZero) (t : ι) (name : String) :
    R.IsZeroBelow t name (R.default t) := by
  intro names type v hv htype
  induction names generalizing t name with
  | nil =>
    rw [fieldAt?_singleton] at hv
    obtain ⟨field, hfield, rfl⟩ := exists_find?_of_fieldOf? hv
    obtain ⟨-, rfl⟩ := Prod.mk.inj (Option.some.inj (hv.symm.trans (fieldOf?_default hdefault hfield)))
    cases hkind : field.type with
    | embedded u => exact absurd hkind (htype u)
    | scalar | optional | repeated | map => rfl
  | cons first names ih =>
    rcases fieldAt?_cons_cases hv with ⟨hnil, -⟩ | ⟨outer, u, inner, -, hrecord, hbelow⟩
    · exact nomatch hnil
    · obtain ⟨field, hfield, rfl⟩ := exists_find?_of_fieldOf? hrecord
      have hzero := (Prod.mk.inj (Option.some.inj
        (hrecord.symm.trans (fieldOf?_default hdefault hfield)))).2
      -- only a record that is always present is a record in a default one
      rcases (embedded_or_optional_of_conforms
        (conforms_of_fieldOf? (R.default_conforms t) hrecord)).1 with hkind | hkind
      · rw [hkind, FieldType.zero, Value.record.injEq] at hzero
        rw [hzero.2] at hbelow
        exact ih u first hbelow
      · rw [hkind, FieldType.zero] at hzero
        exact nomatch hzero

/-- A record that is not set reads like the default one, except for the records that it always
holds. -/
theorem resolveBelow_default (hdefault : R.DefaultsAreZero) (path : String)
    (hend : ∀ u, R.typeAt? t names ≠ some (.embedded u)) :
    R.resolveBelow path t (some (R.default t)) names = R.resolveBelow path t none names := by
  cases names with
  | nil => rfl
  | cons name names =>
    exact (isZeroBelow_default hdefault t name).resolveBelow_eq (R.default_conforms t) hend path

end Default

section Filling

mutual

/-- There is nothing to fill in where no records are held. -/
theorem Filled.eq_of_kind {type : FieldType ι} {a b : Value ι} (h : R.Filled type a b)
    (hkind : ∀ u, type.kind ≠ .record u) : a = b := by
  cases h with
  | same => rfl
  | created => exact absurd rfl (hkind _)
  | record htype => rcases htype with rfl | rfl <;> exact absurd rfl (hkind _)
  | @list e as bs h =>
    have hitem : ∀ u, e.fieldType.kind ≠ .record u := by
      cases e <;> exact hkind
    rw [h.eq_of_kind hitem]
  | @map key e as bs h =>
    have hitem : ∀ u, e.fieldType.kind ≠ .record u := by
      cases e <;> exact hkind
    rw [h.eq_of_kind hitem]

theorem ItemsFilled.eq_of_kind {type : FieldType ι} {as bs : List (Value ι)}
    (h : R.ItemsFilled type as bs) (hkind : ∀ u, type.kind ≠ .record u) : as = bs := by
  cases h with
  | nil => rfl
  | cons h hs => rw [h.eq_of_kind hkind, hs.eq_of_kind hkind]

theorem PairsFilled.eq_of_kind {type : FieldType ι} {as bs : List (Value ι × Value ι)}
    (h : R.PairsFilled type as bs) (hkind : ∀ u, type.kind ≠ .record u) : as = bs := by
  cases h with
  | nil => rfl
  | cons h hs => rw [h.eq_of_kind hkind, hs.eq_of_kind hkind]

end

variable {type : FieldType ι} {a b : Value ι} {as bs : List (Value ι)}

/-- A field of a record that is filled in is filled in. -/
theorem FieldsFilled.exists_fieldOf? {fields : List (Field ι)} {as bs : List (Value ι)}
    (h : R.FieldsFilled fields as bs)
    (hfield : fields.find? (fun field ↦ field.name? == some name) = some field) :
    ∃ a b, fieldOf? name fields as = some (field.type, a) ∧
      fieldOf? name fields bs = some (field.type, b) ∧ R.Filled field.type a b := by
  cases h with
  | nil => simp at hfield
  | @cons first fields a b as bs h hs =>
    rw [fieldOf?, fieldOf?]
    by_cases hname : first.name? = some name
    · obtain rfl : first = field := by simpa [hname] using hfield
      rw [if_pos hname, if_pos hname]
      exact ⟨_, _, rfl, rfl, h⟩
    · rw [List.find?_cons_of_neg (by simpa using hname)] at hfield
      rw [if_neg hname, if_neg hname]
      exact hs.exists_fieldOf? hfield

theorem FieldsFilled.exists_fieldIn? (h : R.FieldsFilled (R.describe t).fields as bs)
    (hfield : (R.describe t).field? name = some field) :
    ∃ a b, R.fieldIn? t (some as) name = some a ∧ R.fieldIn? t (some bs) name = some b ∧
      R.Filled field.type a b := by
  obtain ⟨a, b, ha, hb, hab⟩ := h.exists_fieldOf? hfield
  exact ⟨a, b, fieldIn?_of_fieldOf? ha, fieldIn?_of_fieldOf? hb, hab⟩

/-- If names resolve alike in records that are filled in, they do so below a field that holds such a
record, also where it has been created. -/
theorem Filled.resolveBelow_eq (h : R.Filled type a b)
    (htype : type = .embedded u ∨ type = .optional u)
    (hnames : ∀ {as bs : List (Value ι)}, R.FieldsFilled (R.describe u).fields as bs →
      R.resolveBelow path u (some as) names = R.resolveBelow path u (some bs) names)
    (hunset : R.resolveBelow path u (some (R.default u)) names = R.resolveBelow path u none names) :
    R.resolveBelow path u (valuesOf? a) names = R.resolveBelow path u (valuesOf? b) names := by
  cases h with
  | same => rfl
  | @created t values h =>
    obtain rfl : t = u := by simpa using htype
    calc
      R.resolveBelow path t none names = R.resolveBelow path t (some (R.default t)) names :=
        hunset.symm
      _ = R.resolveBelow path t (some values) names := hnames h
  | @record _ t as bs htype' h =>
    obtain rfl : u = t := by
      rcases htype with rfl | rfl <;> simpa using htype'
    exact hnames h
  | list => rcases htype with htype | htype <;> exact nomatch htype
  | map => rcases htype with htype | htype <;> exact nomatch htype

/-- If names resolve alike in records that are filled in, they do so in every element of a list of
records that is filled in. -/
theorem ItemsFilled.map_resolveIn_eq {as bs : List (Value ι)}
    (h : R.ItemsFilled (.embedded u) as bs)
    (hnames : ∀ {as bs : List (Value ι)}, R.FieldsFilled (R.describe u).fields as bs →
      R.resolveBelow path u (some as) names = R.resolveBelow path u (some bs) names) :
    as.map (R.resolveIn path u names) = bs.map (R.resolveIn path u names) := by
  match h with
  | .nil => rfl
  | .cons (a := a) (b := b) h hs =>
    have hitem : R.resolveIn path u names a = R.resolveIn path u names b := by
      cases h with
      | same => rfl
      | @record _ t as bs htype h =>
        obtain rfl : u = t := by simpa using htype
        simp only [resolveIn, valuesOf?, Option.bind_some, hnames h]
    rw [List.map_cons, List.map_cons, hitem, hs.map_resolveIn_eq hnames]

/-- A path that does not end at records resolves alike in a record and in one that is filled in. The
induction is on the path, so records that have been created meet the absent ones at every depth. -/
theorem FieldsFilled.resolveBelow_eq (hdefault : R.DefaultsAreZero)
    (h : R.FieldsFilled (R.describe t).fields as bs)
    (hend : ∀ type u, R.typeAt? t names = some type → type.kind ≠ .record u) :
    R.resolveBelow path t (some as) names = R.resolveBelow path t (some bs) names := by
  induction names generalizing t as bs with
  | nil => rfl
  | cons name names ih =>
    cases hfield : (R.describe t).field? name with
    | none => rw [resolveBelow_unknown hfield, resolveBelow_unknown hfield]
    | some field =>
      obtain ⟨a, b, ha, hb, hab⟩ := h.exists_fieldIn? hfield
      by_cases hne : names = []
      · subst hne
        have hkind (u : ι) : field.type.kind ≠ .record u :=
          hend field.type u (typeAt?_singleton hfield)
        rw [resolveBelow_end hfield, resolveBelow_end hfield, ha, hb, hab.eq_of_kind hkind]
      rcases field.type.below_cases with ⟨u, htype⟩ | ⟨u, htype⟩ | htype
      · rw [typeAt?_below hfield htype hne] at hend
        rw [resolveBelow_below hfield htype hne, resolveBelow_below hfield htype hne, ha, hb]
        have hunset := resolveBelow_default hdefault path fun w hw ↦ hend _ w hw rfl
        exact hab.resolveBelow_eq htype (fun h ↦ ih h hend) hunset
      · rw [typeAt?_scatter hfield htype hne] at hend
        rw [resolveBelow_scatter hfield htype hne, resolveBelow_scatter hfield htype hne, ha, hb]
        rw [htype] at hab
        have helements : (elements (some a)).map (R.resolveIn path u names) =
            (elements (some b)).map (R.resolveIn path u names) := by
          cases hab with
          | same => rfl
          | record htype' => rcases htype' with htype' | htype' <;> exact nomatch htype'
          | list h => exact h.map_resolveIn_eq fun h ↦ ih h hend
        rw [helements]
      · obtain ⟨e, he⟩ := exists_resolveBelow_error path hfield htype hne
        rw [he, he]

end Filling

end Registry

namespace Record

variable {ι : Type} [DecidableEq ι] {R : Registry ι} {t : ι}

/-- A record in which unset records are replaced by default ones, at any depth, reads like the record
as it was along every path that does not end at records, and has its place in every order. -/
theorem reads_alike_of_filled (hdefault : R.DefaultsAreZero) {r filled : Record R t}
    (h : R.FieldsFilled (R.describe t).fields r.fields filled.fields) :
    (∀ names, (∀ type u, R.typeAt? t names = some type → type.kind ≠ .record u) →
      R.ReadsAlike t r.fields filled.fields names) ∧
    ∀ c : Comparator R t, c.compare r filled = .eq ∧ ∀ x, c.compare r x = c.compare filled x := by
  constructor
  · intro names hend
    exact .of_resolveBelow fun path ↦ h.resolveBelow_eq hdefault hend
  · intro c
    have hkeys : ∀ k ∈ c.keys, R.sortValue t r.fields k.key.path k.kind =
        R.sortValue t filled.fields k.key.path k.kind := by
      intro k hk
      obtain ⟨s, hs, -⟩ := Registry.sortKind_eq_ok_iff.1 (c.checked_of_mem hk)
      have hend : ∀ type u, R.typeAt? t k.key.path.segments = some type → type.kind ≠ .record u := by
        intro type u htype
        obtain rfl := Option.some.inj (hs.typeAt?_eq.symm.trans htype)
        exact s.kind_ne_record u
      rw [Registry.sortValue, Registry.sortValue, h.resolveBelow_eq hdefault hend]
    have hcompare := c.compare_eq_of_sortValue_eq hkeys
    exact ⟨(hcompare filled).trans (c.compare_self filled), hcompare⟩

section Example

/-- A part may have a spare part, and parts of its own. -/
private def assembly : Registry Unit where
  describe _ :=
    { name := "Part"
      fields :=
        [.plain "label" (.scalar .string), .plain "spare" (.optional ()),
          .plain "parts" (.repeated (.record ()))] }
  default _ := [.string "", .null, .list []]
  default_conforms _ := rfl

private def valve (spare : Value Unit) : Value Unit :=
  .record () [.string "valve", spare, .list []]

/-- A default part, with a default part as its spare. -/
private def spare : Value Unit :=
  .record () [.string "", .record () [.string "", .null, .list []], .list []]

private def bareEngine : Record assembly () :=
  ⟨[.string "engine", .null, .list [valve .null]], rfl⟩

private def stockedEngine : Record assembly () :=
  ⟨[.string "engine", .null, .list [valve spare]], rfl⟩

theorem reads_alike_of_filled_spares :
    assembly.FieldsFilled (assembly.describe ()).fields bareEngine.fields stockedEngine.fields ∧
      assembly.ReadsAlike () bareEngine.fields stockedEngine.fields ["parts", "spare", "label"] ∧
      ∀ c : Comparator assembly (), c.compare bareEngine stockedEngine = .eq := by
  have hdefault : assembly.DefaultsAreZero := fun _ ↦ rfl
  have hspare : assembly.Filled (.optional ()) .null spare :=
    .created (.cons (.same _ _)
      (.cons (.created (.cons (.same _ _) (.cons (.same _ _) (.cons (.same _ _) .nil))))
        (.cons (.same _ _) .nil)))
  have hvalve : assembly.Filled (.embedded ()) (valve .null) (valve spare) :=
    .record (.inl rfl) (.cons (.same _ _) (.cons hspare (.cons (.same _ _) .nil)))
  have hfilled :
      assembly.FieldsFilled (assembly.describe ()).fields bareEngine.fields stockedEngine.fields :=
    .cons (.same _ _) (.cons (.same _ _) (.cons (.list (.cons hvalve .nil)) .nil))
  obtain ⟨hreads, hcompare⟩ := reads_alike_of_filled hdefault hfilled
  refine ⟨hfilled, hreads _ ?_, fun c ↦ (hcompare c).1⟩
  rintro type u ⟨⟩
  exact nofun

end Example

end Record

end RecordQuery
