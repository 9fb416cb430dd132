import Mathlib.Data.Option.Basic
import RecordQuery.Proofs.Record.Agreement
import RecordQuery.Proofs.Resolve.Walk

/-!
# Paths in records that agree

A path leads from records that agree to values that agree, or fails in both with the same error. So
the records also have the same rank under every sort key.
-/

namespace RecordQuery

section Options

variable {α β : Type} {r : α → α → Prop} {s : β → β → Prop} {x y : Option α}

theorem rel_map {f g : α → β} (h : Option.Rel r x y) (hfg : ∀ {a b}, r a b → s (f a) (g b)) :
    Option.Rel s (x.map f) (y.map g) := by
  cases h with
  | none => exact .none
  | some h => exact .some (hfg h)

theorem rel_bind {f g : α → Option β} (h : Option.Rel r x y)
    (hfg : ∀ {a b}, x = some a → r a b → Option.Rel s (f a) (g b)) :
    Option.Rel s (x.bind f) (y.bind g) := by
  cases h with
  | none => exact .none
  | some h => exact hfg rfl h

end Options

theorem Number.Agree.rank_eq {m n : Number} (h : m.Agree n) : m.rank = n.rank := by
  cases h with
  | signed n | unsigned n => rfl
  | float h => simp only [rank, h, Floating.isNaN_eq_of_key h]

namespace Registry

variable {ι : Type} [DecidableEq ι] (R : Registry ι)

/-- Whether two computations give values that agree or fail with the same error. -/
inductive OutcomesAgree : Except Error (Value ι) → Except Error (Value ι) → Prop
  | ok {u v : Value ι} (h : R.Agree u v) : OutcomesAgree (.ok u) (.ok v)
  | error (e : Error) : OutcomesAgree (.error e) (.error e)

/-- Whether two records of a type that may be absent are both absent or agree. -/
abbrev AgreeIfPresent (t : ι) : Option (List (Value ι)) → Option (List (Value ι)) → Prop :=
  Option.Rel (R.FieldsAgree (R.describe t).fields)

variable {R} {t u : ι} {path name : String} {names : List String} {field : Field ι}
  {values? values'? : Option (List (Value ι))}

theorem OutcomesAgree.toOption {x y : Except Error (Value ι)} (h : R.OutcomesAgree x y) :
    Option.Rel R.Agree x.toOption y.toOption := by
  cases h with
  | ok h => exact .some h
  | error e => exact .none

theorem agree_zero (s : Scalar) : R.Agree s.zero s.zero :=
  agree_self_of_admits s.admits_zero

theorem agree_absent (type : FieldType ι) : R.Agree type.absent type.absent := by
  cases type with
  | scalar s => exact agree_zero s
  | embedded t | optional t => exact .null
  | repeated e => exact .list .nil
  | map key e => exact .map rfl .nil .nil

theorem AgreeIfPresent.fieldIn? (h : R.AgreeIfPresent t values? values'?) (name : String) :
    Option.Rel R.Agree (R.fieldIn? t values? name) (R.fieldIn? t values'? name) :=
  rel_bind h fun _ hfields ↦ rel_map (hfields.fieldOf? name) And.right

theorem agree_getD {v? w? : Option (Value ι)} (h : Option.Rel R.Agree v? w?) (type : FieldType ι) :
    R.Agree (v?.getD type.absent) (w?.getD type.absent) := by
  cases h with
  | none => exact agree_absent type
  | some h => exact h

/-- Values of one record type, of which the first one conforms, are records that agree. -/
theorem Agree.agreeIfPresent {v w : Value ι} (h : R.Agree v w) {type : FieldType ι}
    (htype : type = .embedded u ∨ type = .optional u) (hv : conforms R.describe type v = true) :
    R.AgreeIfPresent u (valuesOf? v) (valuesOf? w) := by
  cases h with
  | record h =>
    rcases htype with rfl | rfl
    all_goals
      simp only [conforms, Bool.and_eq_true, beq_iff_eq] at hv
      exact .some (hv.1 ▸ h)
  | _ => exact .none

theorem AgreeIfPresent.inner (h : R.AgreeIfPresent t values? values'?)
    (hvalues : R.ConformIfPresent t values?) (hfield : (R.describe t).field? name = some field)
    (htype : field.type = .embedded u ∨ field.type = .optional u) :
    R.AgreeIfPresent u ((R.fieldIn? t values? name).bind valuesOf?)
      ((R.fieldIn? t values'? name).bind valuesOf?) :=
  rel_bind (h.fieldIn? name) fun hv hagree ↦
    hagree.agreeIfPresent htype (conforms_of_fieldIn? hvalues hfield hv)

/-- Repeated fields that agree have elements that agree. -/
theorem itemsAgree_elements {v? w? : Option (Value ι)} (h : Option.Rel R.Agree v? w?) :
    R.ItemsAgree (elements v?) (elements w?) := by
  cases h with
  | none => exact .nil
  | some h =>
    cases h with
    | list h => exact h
    | _ => exact .nil

/-- If what names resolve to agrees in all records that agree, it also agrees in the elements of
lists of records that agree. -/
theorem itemsAgree_resolveIn (hnames : ∀ {values? values'? : Option (List (Value ι))},
      R.ConformIfPresent u values? → R.AgreeIfPresent u values? values'? →
        R.OutcomesAgree (R.resolveBelow path u values? names)
          (R.resolveBelow path u values'? names))
    {items items' : List (Value ι)} (hitems : itemsConform R.describe (.embedded u) items = true)
    (h : R.ItemsAgree items items') :
    R.ItemsAgree (items.map (R.resolveIn path u names))
      (items'.map (R.resolveIn path u names)) := by
  match h with
  | .nil => exact .nil
  | .cons (a := a) hagree h =>
    simp only [itemsConform, Bool.and_eq_true] at hitems
    refine .cons ?_ (itemsAgree_resolveIn hnames hitems.2 h)
    have hconform : R.ConformIfPresent u (valuesOf? a) :=
      fun _ hvalues ↦ fieldsConform_valuesOf? (.inl rfl) hitems.1 hvalues
    have hinner := hagree.agreeIfPresent (.inl rfl) hitems.1
    refine agree_getD (rel_bind hinner fun hvalues hfields ↦ ?_) (.embedded u)
    exact (hnames (hvalues ▸ hconform) (.some hfields)).toOption

/-- A path has the same outcome in records that agree, as far as values that agree are the same. -/
theorem outcomesAgree_resolveBelow (path : String) (names : List String)
    (hvalues : R.ConformIfPresent t values?) (h : R.AgreeIfPresent t values? values'?) :
    R.OutcomesAgree (R.resolveBelow path t values? names)
      (R.resolveBelow path t values'? names) := by
  induction names generalizing t values? values'? with
  | nil => exact .error _
  | cons name names ih =>
    cases hfield : (R.describe t).field? name with
    | none =>
      rw [resolveBelow_unknown hfield, resolveBelow_unknown hfield]
      exact .error _
    | some field =>
      by_cases hne : names = []
      · rw [hne, resolveBelow_end hfield, resolveBelow_end hfield]
        exact .ok (agree_getD (h.fieldIn? name) field.type)
      rcases field.type.below_cases with ⟨u, htype⟩ | ⟨u, htype⟩ | htype
      · rw [resolveBelow_below hfield htype hne, resolveBelow_below hfield htype hne]
        exact ih (conformIfPresent_inner hvalues hfield htype) (h.inner hvalues hfield htype)
      · rw [resolveBelow_scatter hfield htype hne, resolveBelow_scatter hfield htype hne]
        cases R.resolveBelow path u none names with
        | error e => exact .error e
        | ok _ =>
          exact .ok (.list (itemsAgree_resolveIn ih (itemsConform_elements hvalues hfield htype)
            (itemsAgree_elements (h.fieldIn? name))))
      · obtain ⟨e, he⟩ := exists_resolveBelow_error path hfield htype hne
        rw [he, he]
        exact .error e

/-- One side of a comparison has the same outcome in records that agree. -/
theorem outcomesAgree_memberValue {as bs : List (Value ι)}
    (has : fieldsConform R.describe (R.describe t).fields as = true)
    (h : R.FieldsAgree (R.describe t).fields as bs) (segments : List String) :
    R.OutcomesAgree (R.memberValue t as segments) (R.memberValue t bs segments) := by
  cases segments with
  | nil => exact .error _
  | cons name names =>
    simp only [memberValue]
    split
    · exact outcomesAgree_resolveBelow _ _ (fun _ hvalues ↦ Option.some.inj hvalues ▸ has) (.some h)
    · split
      · refine .ok ?_
        unfold literalOf
        split
        · exact .bool _
        · split
          · exact .bool _
          · exact .string _
      · exact .error _

/-- Values that agree have one rank, so no sort key tells them apart. -/
theorem Agree.rank_eq {v w : Value ι} (h : R.Agree v w) : v.rank = w.rank := by
  cases h with
  | number h => exact h.rank_eq
  | _ => rfl

/-- Records that agree have the same rank under every sort key. -/
theorem FieldsAgree.rank_eq {k : SortKey ι} (hk : k.Checked R t) {a b : Record R t}
    (h : R.FieldsAgree (R.describe t).fields a.fields b.fields) : k.rank a = k.rank b := by
  obtain ⟨s, hs, -⟩ := sortKind_eq_ok_iff.1 hk
  have ha := (hs.sortValue_eq a.fields_conform k.kind).1
  have hb := (hs.sortValue_eq b.fields_conform k.kind).1
  have houtcomes := outcomesAgree_resolveBelow k.key.path.text k.key.path.segments
    (fun _ hvalues ↦ Option.some.inj hvalues ▸ a.fields_conform) (.some h)
  rw [ha, hb] at houtcomes
  cases houtcomes with
  | ok hagree => exact hagree.rank_eq

end Registry

end RecordQuery
