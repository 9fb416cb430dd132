import RecordQuery.Proofs.Outcome
import RecordQuery.Proofs.Resolve.Form
import RecordQuery.Proofs.Resolve.Walk

/-!
# Leaves of a path

A path leads to one or several values of a record. It chooses an element of every repeated field
that it passes through or ends at, and descends into embedded records; below one that is not set,
every field reads as absent. What a path resolves to has these values as its leaves, so resolving a
path in all elements loses none and adds none.
-/

namespace RecordQuery

section Leaves

variable {ι : Type}

theorem Value.leaves_of_form {v : Value ι} (h : v.form ≠ .list) : v.leaves = [v] := by
  cases v with
  | list items => exact absurd rfl h
  | _ => rfl

theorem mem_itemLeaves {items : List (Value ι)} {l : Value ι} :
    l ∈ itemLeaves items ↔ ∃ v ∈ items, l ∈ v.leaves := by
  induction items with
  | nil => simp [itemLeaves]
  | cons v items ih => simp [itemLeaves, ih]

end Leaves

namespace Registry

variable {ι : Type} [DecidableEq ι] {R : Registry ι} {t u : ι} {path name : String}
  {names : List String} {field : Field ι} {values? : Option (List (Value ι))} {v l : Value ι}

/-- Whether a value is one of those that names lead to below a record of some type, which may be
absent. -/
inductive LeafBelow (R : Registry ι) : ι → Option (List (Value ι)) → List String → Value ι → Prop
  | value {t : ι} {values? : Option (List (Value ι))} {name : String} {field : Field ι}
      (hfield : (R.describe t).field? name = some field) (htype : ∀ e, field.type ≠ .repeated e) :
      LeafBelow R t values? [name] ((R.fieldIn? t values? name).getD field.type.absent)
  | element {t : ι} {values? : Option (List (Value ι))} {name : String} {field : Field ι}
      {e : ElementType ι} {v : Value ι} (hfield : (R.describe t).field? name = some field)
      (htype : field.type = .repeated e) (hmem : v ∈ elements (R.fieldIn? t values? name)) :
      LeafBelow R t values? [name] v
  | inner {t u : ι} {values? : Option (List (Value ι))} {name : String} {names : List String}
      {field : Field ι} {l : Value ι} (hfield : (R.describe t).field? name = some field)
      (htype : field.type = .embedded u ∨ field.type = .optional u)
      (h : LeafBelow R u ((R.fieldIn? t values? name).bind valuesOf?) names l) :
      LeafBelow R t values? (name :: names) l
  | each {t u : ι} {values? : Option (List (Value ι))} {name : String} {names : List String}
      {field : Field ι} {item l : Value ι} (hfield : (R.describe t).field? name = some field)
      (htype : field.type = .repeated (.record u))
      (hmem : item ∈ elements (R.fieldIn? t values? name))
      (h : LeafBelow R u (valuesOf? item) names l) : LeafBelow R t values? (name :: names) l

theorem LeafBelow.ne_nil (h : R.LeafBelow t values? names l) : names ≠ [] := by
  cases h <;> simp

theorem LeafBelow.exists_field (h : R.LeafBelow t values? (name :: names) l) :
    ∃ field, (R.describe t).field? name = some field := by
  cases h with
  | value hfield | element hfield | inner hfield | each hfield => exact ⟨_, hfield⟩

/-- The elements of a repeated field are no lists. -/
theorem form_element {e : ElementType ι} (h : conforms R.describe e.fieldType v = true) :
    v.form ≠ .list := by
  rw [form_of_conforms h]
  cases e with
  | scalar s => cases s <;> simp [ElementType.fieldType, FieldType.form, Scalar.form]
  | record u => simp [ElementType.fieldType, FieldType.form]

section Inversion

variable (hfield : (R.describe t).field? name = some field)

include hfield

theorem leafBelow_value_iff (htype : ∀ e, field.type ≠ .repeated e) :
    R.LeafBelow t values? [name] l ↔
      l = (R.fieldIn? t values? name).getD field.type.absent := by
  constructor
  · intro h
    cases h with
    | value hfield' =>
      obtain rfl := Option.some.inj (hfield.symm.trans hfield')
      rfl
    | element hfield' htype' =>
      obtain rfl := Option.some.inj (hfield.symm.trans hfield')
      exact absurd htype' (htype _)
    | inner _ _ h => exact absurd rfl h.ne_nil
    | each _ _ _ h => exact absurd rfl h.ne_nil
  · rintro rfl
    exact .value hfield htype

theorem leafBelow_element_iff {e : ElementType ι} (htype : field.type = .repeated e) :
    R.LeafBelow t values? [name] l ↔ l ∈ elements (R.fieldIn? t values? name) := by
  constructor
  · intro h
    cases h with
    | value hfield' htype' =>
      obtain rfl := Option.some.inj (hfield.symm.trans hfield')
      exact absurd htype (htype' e)
    | element _ _ hmem => exact hmem
    | inner _ _ h => exact absurd rfl h.ne_nil
    | each _ _ _ h => exact absurd rfl h.ne_nil
  · exact .element hfield htype

/-- Below an embedded record the leaves are those of that record, or of no record where it is unset.
-/
theorem leafBelow_inner_iff (htype : field.type = .embedded u ∨ field.type = .optional u)
    (hne : names ≠ []) :
    R.LeafBelow t values? (name :: names) l ↔
      R.LeafBelow u ((R.fieldIn? t values? name).bind valuesOf?) names l := by
  constructor
  · intro h
    cases h with
    | value => exact absurd rfl hne
    | element => exact absurd rfl hne
    | inner hfield' htype' h =>
      obtain rfl := Option.some.inj (hfield.symm.trans hfield')
      obtain rfl : u = _ := by
        rcases htype with htype | htype <;> simpa [htype] using htype'
      exact h
    | each hfield' htype' =>
      obtain rfl := Option.some.inj (hfield.symm.trans hfield')
      rcases htype with htype | htype <;> exact nomatch htype.symm.trans htype'
  · exact .inner hfield htype

/-- Below a list of records the leaves are those of all its items together. -/
theorem leafBelow_each_iff (htype : field.type = .repeated (.record u)) (hne : names ≠ []) :
    R.LeafBelow t values? (name :: names) l ↔
      ∃ item ∈ elements (R.fieldIn? t values? name), R.LeafBelow u (valuesOf? item) names l := by
  constructor
  · intro h
    cases h with
    | value => exact absurd rfl hne
    | element => exact absurd rfl hne
    | inner hfield' htype' =>
      obtain rfl := Option.some.inj (hfield.symm.trans hfield')
      rcases htype' with htype' | htype' <;> exact nomatch htype.symm.trans htype'
    | each hfield' htype' hmem h =>
      obtain rfl := Option.some.inj (hfield.symm.trans hfield')
      obtain rfl : u = _ := by simpa [htype] using htype'
      exact ⟨_, hmem, h⟩
  · rintro ⟨item, hmem, h⟩
    exact .each hfield htype hmem h

end Inversion

/-- The value at the end of a path is a leaf, or a list of leaves. -/
theorem mem_leaves_end (hvalues : R.ConformIfPresent t values?)
    (hfield : (R.describe t).field? name = some field) :
    l ∈ ((R.fieldIn? t values? name).getD field.type.absent).leaves ↔
      R.LeafBelow t values? [name] l := by
  by_cases htype : ∃ e, field.type = .repeated e
  · obtain ⟨e, htype⟩ := htype
    have hitems := itemsConform_elements hvalues hfield htype
    have hvalue : (R.fieldIn? t values? name).getD field.type.absent =
        .list (elements (R.fieldIn? t values? name)) := by
      cases hv : R.fieldIn? t values? name with
      | none => rw [htype]; rfl
      | some v =>
        have hconforms := conforms_of_fieldIn? hvalues hfield hv
        rw [htype] at hconforms
        cases v with
        | list items => rfl
        | _ => simp [conforms] at hconforms
    rw [leafBelow_element_iff hfield htype, hvalue, Value.leaves, mem_itemLeaves]
    constructor
    · rintro ⟨v, hmem, hl⟩
      rw [Value.leaves_of_form (form_element (mem_itemsConform hitems hmem))] at hl
      obtain rfl := List.mem_singleton.1 hl
      exact hmem
    · intro hmem
      have hl := Value.leaves_of_form (form_element (mem_itemsConform hitems hmem))
      exact ⟨l, hmem, hl ▸ List.mem_singleton_self l⟩
  · have hne : ∀ e, field.type ≠ .repeated e := fun e he ↦ htype ⟨e, he⟩
    have hform : ((R.fieldIn? t values? name).getD field.type.absent).form ≠ .list := by
      rw [form_getD_fieldIn? hvalues hfield field.type.form_absent]
      cases h : field.type with
      | scalar s => cases s <;> simp [FieldType.form, Scalar.form]
      | repeated e => exact absurd h (hne e)
      | embedded u | optional u | map key e => simp [FieldType.form]
    rw [leafBelow_value_iff hfield hne, Value.leaves_of_form hform, List.mem_singleton]

/-- Names that resolve without data resolve in every element of a repeated field. -/
theorem exists_resolveIn {item : Value ι} (hitem : conforms R.describe (.embedded u) item = true)
    {w : Value ι} (hw : R.resolveBelow path u none names = .ok w) :
    ∃ v, R.resolveBelow path u (valuesOf? item) names = .ok v ∧
      R.resolveIn path u names item = v := by
  have hconform : R.ConformIfPresent u (valuesOf? item) :=
    fun _ hvalues ↦ fieldsConform_valuesOf? (.inl rfl) hitem hvalues
  have hform : (R.resolveBelow path u (valuesOf? item) names).toOption.map Value.form =
      (R.resolveBelow path u none names).toOption.map Value.form :=
    (form_resolveBelow hconform).trans (form_resolveBelow (by simp [ConformIfPresent])).symm
  rw [hw] at hform
  cases item with
  | record u' values =>
    simp only [resolveIn, valuesOf?, Option.bind_some] at hform ⊢
    cases hv : R.resolveBelow path u (some values) names with
    | error e =>
      simp [hv, Except.toOption] at hform
    | ok v => exact ⟨v, rfl, rfl⟩
  | _ => simp [conforms] at hitem

/-- The leaves of what a path resolves to are the values that it leads to. -/
theorem mem_leaves_resolveBelow (hvalues : R.ConformIfPresent t values?)
    (hv : R.resolveBelow path t values? names = .ok v) :
    l ∈ v.leaves ↔ R.LeafBelow t values? names l := by
  induction names generalizing t values? v with
  | nil => exact nomatch hv
  | cons name names ih =>
    cases hfield : (R.describe t).field? name with
    | none =>
      rw [resolveBelow_unknown hfield] at hv
      exact nomatch hv
    | some field =>
      by_cases hne : names = []
      · rw [hne, resolveBelow_end hfield] at hv
        rw [hne, ← Except.ok.inj hv]
        exact mem_leaves_end hvalues hfield
      rcases field.type.below_cases with ⟨u, htype⟩ | ⟨u, htype⟩ | htype
      · rw [resolveBelow_below hfield htype hne] at hv
        rw [leafBelow_inner_iff hfield htype hne]
        exact ih (conformIfPresent_inner hvalues hfield htype) hv
      · rw [resolveBelow_scatter hfield htype hne] at hv
        obtain ⟨w, hw, rfl⟩ := Outcome.map_eq_ok_iff.1 hv
        have hitems := itemsConform_elements hvalues hfield htype
        rw [leafBelow_each_iff hfield htype hne, Value.leaves, mem_itemLeaves]
        have hleaves {item : Value ι} (hmem : item ∈ elements (R.fieldIn? t values? name)) :
            l ∈ (R.resolveIn path u names item).leaves ↔
              R.LeafBelow u (valuesOf? item) names l := by
          have hitem := mem_itemsConform hitems hmem
          obtain ⟨v, hv, hresolve⟩ := exists_resolveIn hitem hw
          rw [hresolve]
          exact ih (fun _ hinner ↦ fieldsConform_valuesOf? (.inl rfl) hitem hinner) hv
        constructor
        · rintro ⟨_, hmem, hl⟩
          obtain ⟨item, hitem, rfl⟩ := List.mem_map.1 hmem
          exact ⟨item, hitem, (hleaves hitem).1 hl⟩
        · rintro ⟨item, hitem, hl⟩
          exact ⟨_, List.mem_map_of_mem hitem, (hleaves hitem).2 hl⟩
      · obtain ⟨e, he⟩ := exists_resolveBelow_error path hfield htype hne
        rw [he] at hv
        exact nomatch hv

end Registry

end RecordQuery
