import RecordQuery.Proofs.Cursor.Disclosure
import RecordQuery.Proofs.Resolve.Unset
import RecordQuery.Sample.Library

/-!
# Writing one path

A scalar that is read along a path can be written along the same path into any record of the type.
Records that are not set are created on the way, and apart from this nothing changes: every other path
that does not end at a record resolves as if only these records had been created. A default record
with zero values reads like one that is not set, so then it resolves to what it resolved to before.
-/

namespace RecordQuery

variable {ι : Type} [DecidableEq ι] {R : Registry ι} {t u : ι} {name : String}
  {names other : List String} {values inner : List (Value ι)} {field : Field ι} {v w : Value ι}
  {s : Scalar}

namespace Registry

/-- All that a path looks at in a record is the field that it begins with. -/
theorem resolveBelow_congr {path : String} {values? values'? : Option (List (Value ι))}
    (h : R.fieldIn? t values? name = R.fieldIn? t values'? name) :
    R.resolveBelow path t values? (name :: names) =
      R.resolveBelow path t values'? (name :: names) := by
  unfold fieldIn? at h
  simp only [resolveBelow, h]

theorem fieldIn?_setField {type : FieldType ι}
    (hv : fieldOf? name (R.describe t).fields values = some (type, v)) :
    R.fieldIn? t (some (setField name w (R.describe t).fields values)) name = some w :=
  fieldIn?_of_fieldOf? (fieldOf?_setField w hv)

/-- What has been written along a path is read there. -/
theorem Reaches.edit_assignTo (h : R.Reaches t names s) (hv : s.admits v = true)
    (hvalues : fieldsConform R.describe (R.describe t).fields values = true) (path : String) :
    (R.edit (R.assignTo v) names t values).1 = some (.ok ()) ∧
      R.resolveBelow path t (some (R.edit (R.assignTo v) names t values).2) names = .ok v := by
  induction h generalizing values with
  | @scalar t name field s hfield htype =>
    obtain ⟨old, hold, -⟩ := exists_fieldOf? hvalues hfield
    have hassign : R.assignTo v field.type old = (.ok (), v) := by
      rw [assignTo, htype, assign_of_admits hv]
    rw [edit_singleton _ hold, hassign, resolveBelow_leaf hfield htype, fieldIn?_setField hold]
    exact ⟨rfl, rfl⟩
  | @through t u name field names s hfield htype hnames ih =>
    obtain ⟨old, hold, hconforms⟩ := exists_fieldOf? hvalues hfield
    obtain ⟨inner, hinner, hinnerConforms⟩ := exists_inner? htype hconforms
    obtain ⟨houtcome, hread⟩ := ih hv hinnerConforms
    rw [edit_cons_of_inner? _ hnames.ne_nil hold hinner,
      resolveBelow_below hfield htype hnames.ne_nil, fieldIn?_setField hold]
    exact ⟨houtcome, hread⟩

/-- A path that begins with another name does not see a replaced field. -/
theorem resolveBelow_setField_of_ne {first path : String} (hne : first ≠ name) :
    R.resolveBelow path t (some (setField name w (R.describe t).fields values)) (first :: names) =
      R.resolveBelow path t (some values) (first :: names) := by
  apply resolveBelow_congr
  rw [fieldIn?, fieldIn?, Option.bind_some, Option.bind_some, fieldOf?_setField_of_ne hne]

/-- A path that does not end at a record goes on below the records on its way. -/
theorem ne_nil_of_ends (hfield : (R.describe t).field? name = some field)
    (htype : field.type = .embedded u ∨ field.type = .optional u)
    (hend : ∀ u, R.typeAt? t (name :: names) ≠ some (.embedded u) ∧
      R.typeAt? t (name :: names) ≠ some (.optional u)) : names ≠ [] := by
  rintro rfl
  rw [typeAt?_singleton hfield] at hend
  rcases htype with htype | htype
  · exact (hend u).1 (congrArg some htype)
  · exact (hend u).2 (congrArg some htype)

/-- Writing along a path changes no other reading than creating the records on the way does. The
induction is on the path that is written: where the other one leaves it, it meets a field that is as
it was. -/
theorem Reaches.resolveBelow_edit (h : R.Reaches t names s)
    (hvalues : fieldsConform R.describe (R.describe t).fields values = true) (hne : other ≠ names)
    (hend : ∀ u, R.typeAt? t other ≠ some (.embedded u) ∧ R.typeAt? t other ≠ some (.optional u))
    (path : String) :
    R.resolveBelow path t (some (R.edit (R.assignTo v) names t values).2) other =
      R.resolveBelow path t (some (R.edit R.createIn names.dropLast t values).2) other := by
  induction h generalizing values other with
  | @scalar t name field s hfield htype =>
    obtain ⟨old, hold, -⟩ := exists_fieldOf? hvalues hfield
    rw [edit_singleton _ hold, List.dropLast_singleton, edit]
    cases other with
    | nil => rfl
    | cons first other =>
      by_cases hfirst : first = name
      · subst hfirst
        have hnothing : ∀ u, field.type ≠ .embedded u ∧ field.type ≠ .optional u ∧
            field.type ≠ .repeated (.record u) := by
          simp [htype]
        have hother : other ≠ [] := fun h ↦ hne (congrArg (first :: ·) h)
        obtain ⟨e, he⟩ := exists_resolveBelow_error path hfield hnothing hother
        rw [he, he]
      · exact resolveBelow_setField_of_ne hfirst
  | @through t u name field names s hfield htype hnames ih =>
    obtain ⟨old, hold, hconforms⟩ := exists_fieldOf? hvalues hfield
    obtain ⟨inner, hinner, hinnerConforms⟩ := exists_inner? htype hconforms
    rw [edit_cons_of_inner? _ hnames.ne_nil hold hinner, List.dropLast_cons_of_ne_nil hnames.ne_nil,
      edit_createIn_cons hold hinner]
    cases other with
    | nil => rfl
    | cons first other =>
      by_cases hfirst : first = name
      · subst hfirst
        have hother : other ≠ [] := ne_nil_of_ends hfield htype hend
        have hne : other ≠ names := fun h ↦ hne (congrArg (first :: ·) h)
        rw [typeAt?_below hfield htype hother] at hend
        rw [resolveBelow_below hfield htype hother, resolveBelow_below hfield htype hother,
          fieldIn?_setField hold, fieldIn?_setField hold]
        exact ih hinnerConforms hne hend
      · rw [resolveBelow_setField_of_ne hfirst, resolveBelow_setField_of_ne hfirst]

/-- A record that is created on the way of a path shows along no other path, if default records are
zero; whatever they hold, it does not show along a path that does not lead into it. -/
theorem Reaches.resolveBelow_create (h : R.Reaches t names s)
    (hvalues : fieldsConform R.describe (R.describe t).fields values = true)
    (hcreated : R.DefaultsAreZero ∨ ∀ front, front <+: names.dropLast → front <+: other →
      (R.fieldAt? front t values).map Prod.snd ≠ some .null)
    (hend : ∀ u, R.typeAt? t other ≠ some (.embedded u) ∧ R.typeAt? t other ≠ some (.optional u))
    (path : String) :
    R.resolveBelow path t (some (R.edit R.createIn names.dropLast t values).2) other =
      R.resolveBelow path t (some values) other := by
  induction h generalizing values other with
  | scalar => rw [List.dropLast_singleton, edit]
  | @through t u name field names s hfield htype hnames ih =>
    obtain ⟨old, hold, hconforms⟩ := exists_fieldOf? hvalues hfield
    obtain ⟨inner, hinner, hinnerConforms⟩ := exists_inner? htype hconforms
    rw [List.dropLast_cons_of_ne_nil hnames.ne_nil] at hcreated ⊢
    rw [edit_createIn_cons hold hinner]
    cases other with
    | nil => rfl
    | cons first other =>
      by_cases hfirst : first = name
      · subst hfirst
        have hother : other ≠ [] := ne_nil_of_ends hfield htype hend
        rw [typeAt?_below hfield htype hother] at hend
        rw [resolveBelow_below hfield htype hother, resolveBelow_below hfield htype hother,
          fieldIn?_setField hold, fieldIn?_of_fieldOf? hold]
        rcases record_or_null htype hconforms with ⟨held, rfl, -⟩ | ⟨hoptional, rfl⟩
        · obtain ⟨-, rfl⟩ := Prod.mk.inj (Option.some.inj
            ((inner?_of_conforms hconforms).symm.trans hinner))
          refine ih hinnerConforms (hcreated.imp_right fun hset front hfront hother ↦ ?_) hend
          cases front with
          | nil => simp [fieldAt?]
          | cons next front =>
            rw [← fieldAt?_cons_of_record (List.cons_ne_nil _ _) hold]
            exact hset _ (List.cons_prefix_cons.2 ⟨rfl, hfront⟩) (List.cons_prefix_cons.2 ⟨rfl, hother⟩)
        · have hdefault : R.DefaultsAreZero := by
            refine hcreated.resolve_right fun hset ↦ ?_
            apply hset [first] (List.prefix_append [first] _) (List.prefix_append [first] _)
            rw [fieldAt?_singleton, hold]
            rfl
          rw [hoptional] at hinner
          obtain ⟨-, rfl⟩ := Prod.mk.inj (Option.some.inj hinner)
          calc
            R.resolveBelow path u (some (R.edit R.createIn names.dropLast u (R.default u)).2) other
            _ = R.resolveBelow path u (some (R.default u)) other :=
              ih hinnerConforms (.inl hdefault) hend
            _ = R.resolveBelow path u none other :=
              resolveBelow_default hdefault path fun w ↦ (hend w).1
      · exact resolveBelow_setField_of_ne hfirst

end Registry

/-- A scalar that is read along a path can be written along this path into any record of the type. It
is then read there, and every other path that does not end at a record resolves as in the record in
which only the records on the way have been created. This is what it resolved to before if default
records are zero, and else if it does not lead into a record that had to be created. -/
theorem Record.write_frames_readings (hpath : R.Reaches t names s) (r source : Record R t)
    {path : String} (hv : R.resolveBelow path t (some source.fields) names = .ok v) :
    (r.assign names v).1 = some (.ok ()) ∧
    (∀ path, R.resolveBelow path t (some (r.assign names v).2.fields) names = .ok v) ∧
    ∀ other, other ≠ names →
      (∀ u, R.typeAt? t other ≠ some (.embedded u) ∧ R.typeAt? t other ≠ some (.optional u)) →
        R.ReadsAlike t (r.assign names v).2.fields (r.create names.dropLast).2.fields other ∧
        ((R.DefaultsAreZero ∨ ∀ front, front <+: names.dropLast → front <+: other →
            r.valueAt? front ≠ some .null) →
          R.ReadsAlike t (r.assign names v).2.fields r.fields other) := by
  have hadmits : s.admits v = true := by
    obtain ⟨v', hv', hadmits⟩ :=
      hpath.exists_resolveBelow (Registry.conformIfPresent_some source.fields_conform) path
    rwa [Except.ok.inj (hv.symm.trans hv')]
  refine ⟨?outcome, ?read, fun other hne hend ↦ ⟨?created, fun hcreated ↦ ?before⟩⟩
  case outcome => exact (hpath.edit_assignTo hadmits r.fields_conform "").1
  case read =>
    intro path
    exact (hpath.edit_assignTo hadmits r.fields_conform path).2
  case created =>
    apply Registry.ReadsAlike.of_resolveBelow
    exact hpath.resolveBelow_edit r.fields_conform hne hend
  case before =>
    apply Registry.ReadsAlike.of_resolveBelow
    intro path
    exact (hpath.resolveBelow_edit r.fields_conform hne hend path).trans
      (hpath.resolveBelow_create r.fields_conform hcreated hend path)

section Example

open Sample

/-- A book with an author of whom the year of birth is known. -/
private def dated : Record library .book :=
  ⟨(library.default .book).set 2
    (.record .author [.string "Ursula", .string "",
      .record .date [.ofSigned 1929, .ofUnsigned 0], .list []]), rfl⟩

private def blank : Record library .book :=
  Record.default

/-- The year of birth of an author is written into a book without an author. The author that is
created for it shows at no other path. -/
theorem Record.write_frames_readings_birth :
    (blank.assign ["author", "birth", "year"] (.ofSigned 1929)).1 = some (.ok ()) ∧
      library.ReadsAlike .book
        (blank.assign ["author", "birth", "year"] (.ofSigned 1929)).2.fields blank.fields
        ["author", "birth", "month"] := by
  have hpath : library.Reaches .book ["author", "birth", "year"] (.integer .int32) :=
    .through rfl (.inr rfl) (.through rfl (.inr rfl) (.scalar rfl rfl))
  have hread : library.resolveBelow "author.birth.year" .book (some dated.fields)
      ["author", "birth", "year"] = .ok (.ofSigned 1929) :=
    rfl
  obtain ⟨houtcome, -, hframe⟩ := write_frames_readings hpath blank dated hread
  have hend (u : LibraryType) :
      library.typeAt? .book ["author", "birth", "month"] ≠ some (.embedded u) ∧
        library.typeAt? .book ["author", "birth", "month"] ≠ some (.optional u) := by
    constructor <;> exact nofun
  exact ⟨houtcome, (hframe _ (by decide) hend).2 (.inl library_defaultsAreZero)⟩

/-- A book may have an author, and an author has a name unless told otherwise. -/
private def signed : Registry Bool where
  describe
    | true =>
      { name := "Book"
        fields := [.plain "title" (.scalar .string), .plain "author" (.optional false)] }
    | false =>
      { name := "Author"
        fields := [.plain "name" (.scalar .string), .plain "city" (.scalar .string)] }
  default
    | true => [.string "", .null]
    | false => [.string "Anonymous", .string ""]
  default_conforms t := by cases t <;> rfl

private def unsigned : Record signed true :=
  ⟨[.string "Beowulf", .null], rfl⟩

/-- Where default records are not zero, the name of an author is read otherwise once a city has been
written, as this creates the author. -/
theorem Record.write_shows_default_name :
    signed.Reaches true ["author", "city"] .string ∧
      (∃ source : Record signed true, signed.resolveBelow "author.city" true (some source.fields)
        ["author", "city"] = .ok (.string "Quito")) ∧
      signed.typeAt? true ["author", "name"] = some (.scalar .string) ∧
      signed.resolveBelow "author.name" true (some unsigned.fields) ["author", "name"] =
        .ok (.string "") ∧
      signed.resolveBelow "author.name" true
        (some (unsigned.assign ["author", "city"] (.string "Quito")).2.fields)
        ["author", "name"] = .ok (.string "Anonymous") := by
  refine ⟨.through rfl (.inr rfl) (.scalar rfl rfl), ?_, rfl, rfl, rfl⟩
  exact ⟨⟨[.string "", .record false [.string "", .string "Quito"]], rfl⟩, rfl⟩

end Example

end RecordQuery
