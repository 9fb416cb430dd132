import RecordQuery.Proofs.Filter.Ordered
import RecordQuery.Proofs.Filter.Scatter
import RecordQuery.Proofs.Record.Symmetry

/-!
# The operators belong together

A comparison may be written from either side: its operands can be exchanged if the operator is replaced
by its converse. On single values "!=" says the opposite of "=", and between numbers and between texts
">=" says that ">" or "=" holds. Lists do not disturb the exchange, since an operator is asked for on the
leaves of both sides and the first side is not preferred. All this rests on equality being symmetric
among the values that paths and literals lead to.
-/

namespace RecordQuery

theorem Text.compare_swap (s t : String) : (compare s t).swap = compare t s := by
  rw [compare, compare, compareChars_eq_compare, compareChars_eq_compare]
  exact Std.OrientedCmp.eq_swap.symm

namespace Operator

/-- The operator that asks the same with the sides exchanged; containment has none. -/
def converse : Operator → Operator
  | gt => lt
  | gte => lte
  | lt => gt
  | lte => gte
  | op => op

theorem holds_converse_swap (op : Operator) (o : Ordering) :
    op.converse.holds o.swap = op.holds o := by
  cases op <;> cases o <;> rfl

end Operator

theorem Value.isList_of_mem_leaves {ι : Type} {v l : Value ι} (h : l ∈ v.leaves) :
    l.isList = false := by
  match v with
  | .list items =>
    obtain ⟨item, hitem, hl⟩ := mem_itemLeaves.1 h
    have hsize := List.sizeOf_lt_of_mem hitem
    exact isList_of_mem_leaves hl
  | .null | .bool _ | .number _ | .string _ | .map _ | .record _ _ =>
    obtain rfl := List.mem_singleton.1 h
    rfl
termination_by sizeOf v
decreasing_by simp at hsize ⊢; omega

namespace Registry

variable {ι : Type} [DecidableEq ι] {R : Registry ι}

section Converse

variable {op : Operator} {u v : Value ι}

theorem isTrue_eq (outcome : Except Error Bool) : isTrue outcome = outcome.toOption.getD false := by
  cases outcome <;> rfl

/-- A comparison of two leaves survives turning round the operands together with the operator; only
the text of an error can differ. -/
theorem compareLeaves_converse (hop : op ≠ .has) (h : R.equal u v = R.equal v u) :
    (R.compareLeaves op u v).toOption = (R.compareLeaves op.converse v u).toOption := by
  have hnumbers (op : Operator) (m n : Number) :
      (m.compare? n).any op.holds = (n.compare? m).any op.converse.holds := by
    rw [← Number.compare?_swap m n, Option.any_map]
    exact congrArg (Option.any · _) (funext fun o ↦ (op.holds_converse_swap o).symm)
  have htexts (op : Operator) (s t : String) :
      op.holds (Text.compare s t) = op.converse.holds (Text.compare t s) := by
    rw [← Text.compare_swap s t, op.holds_converse_swap]
  cases op with
  | eq => exact congrArg some h
  | ne => exact congrArg (some !·) h
  | has => exact absurd rfl hop
  | gt | gte | lt | lte =>
    cases u <;> cases v <;>
      first | rfl | exact congrArg some (hnumbers _ _ _) | exact congrArg some (htexts _ _ _)

/-- The sides of a comparison can be exchanged if their leaves can. -/
theorem compare_converse (hop : op ≠ .has)
    (h : ∀ a ∈ u.leaves, ∀ b ∈ v.leaves, R.equal a b = R.equal b a) :
    (R.compare op u v).toOption = (R.compare op.converse v u).toOption := by
  have hleaves {a b : Value ι} (ha : a ∈ u.leaves) (hb : b ∈ v.leaves) :
      isTrue (R.compareLeaves op a b) = isTrue (R.compareLeaves op.converse b a) := by
    rw [isTrue_eq, isTrue_eq, compareLeaves_converse hop (h a ha b hb)]
  unfold compare
  rw [Bool.or_comm v.isList]
  split
  · refine congrArg some (Bool.eq_iff_iff.2 ?_)
    simp only [List.any_eq_true]
    constructor
    · rintro ⟨a, ha, b, hb, hab⟩
      exact ⟨b, hb, a, ha, hleaves ha hb ▸ hab⟩
    · rintro ⟨b, hb, a, ha, hba⟩
      exact ⟨a, ha, b, hb, (hleaves ha hb).trans hba⟩
  · rename_i hlist
    obtain ⟨hu, hv⟩ : u.isList = false ∧ v.isList = false := by simpa using hlist
    refine compareLeaves_converse hop (h u ?_ v ?_)
    · rw [Value.leaves_of_isList hu]
      exact List.mem_singleton_self u
    · rw [Value.leaves_of_isList hv]
      exact List.mem_singleton_self v

end Converse

section Ordered

variable {u v : Value ι}

/-- Ordered values satisfy `>=` exactly if they satisfy one of `>` and `=`. -/
theorem Ordered.gte_iff {o : Ordering} (h : R.Ordered u v o) :
    R.compare .gte u v = .ok true ↔ R.compare .gt u v = .ok true ∨ R.compare .eq u v = .ok true := by
  rw [h.gte, h.gt, h.eq]
  cases o <;> decide

theorem Unordered.gte_iff (h : R.Unordered u v) :
    R.compare .gte u v = .ok true ↔ R.compare .gt u v = .ok true ∨ R.compare .eq u v = .ok true := by
  rw [h.gte, h.gt, h.eq]
  decide

/-- An operator holds of two values exactly if it holds of some leaf of each. -/
theorem compare_eq_true_iff (op : Operator) :
    R.compare op u v = .ok true ↔ ∃ a ∈ u.leaves, ∃ b ∈ v.leaves, R.compare op a b = .ok true := by
  rw [← isTrue_iff, isTrue_compare_iff]
  refine exists_congr fun a ↦ and_congr_right fun ha ↦ exists_congr fun b ↦
    and_congr_right fun hb ↦ ?_
  rw [compare, Value.isList_of_mem_leaves ha, Value.isList_of_mem_leaves hb]
  rfl

/-- Whether all leaves of two values are numbers, or all of them texts. -/
def LeavesOrdered (u v : Value ι) : Prop :=
  (∀ l ∈ u.leaves ++ v.leaves, l.shape = .number) ∨ ∀ l ∈ u.leaves ++ v.leaves, l.shape = .string

theorem gte_iff_of_shape {a b : Value ι} (h : (a.shape = .number ∧ b.shape = .number) ∨
      a.shape = .string ∧ b.shape = .string) :
    R.compare .gte a b = .ok true ↔ R.compare .gt a b = .ok true ∨ R.compare .eq a b = .ok true := by
  rcases h with ⟨ha, hb⟩ | ⟨ha, hb⟩
  · obtain ⟨m, rfl⟩ : ∃ m, a = .number m := by cases a <;> simp_all [Value.shape]
    obtain ⟨n, rfl⟩ : ∃ n, b = .number n := by cases b <;> simp_all [Value.shape]
    cases h : m.compare? n with
    | none => exact (unordered_number h).gte_iff
    | some o => exact (ordered_number h).gte_iff
  · obtain ⟨s, rfl⟩ : ∃ s, a = .string s := by cases a <;> simp_all [Value.shape]
    obtain ⟨t, rfl⟩ : ∃ t, b = .string t := by cases b <;> simp_all [Value.shape]
    exact (ordered_string s t).gte_iff

/-- Over leaves of one ordered kind `>=` holds exactly if `>` or `=` does, pair of leaves by pair of
leaves. -/
theorem gte_iff_of_leavesOrdered (h : LeavesOrdered u v) :
    R.compare .gte u v = .ok true ↔ R.compare .gt u v = .ok true ∨ R.compare .eq u v = .ok true := by
  have hleaves {a b : Value ι} (ha : a ∈ u.leaves) (hb : b ∈ v.leaves) :
      R.compare .gte a b = .ok true ↔
        R.compare .gt a b = .ok true ∨ R.compare .eq a b = .ok true := by
    have ha' := List.mem_append_left v.leaves ha
    have hb' := List.mem_append_right u.leaves hb
    exact gte_iff_of_shape (h.imp (fun h ↦ ⟨h a ha', h b hb'⟩) fun h ↦ ⟨h a ha', h b hb'⟩)
  rw [compare_eq_true_iff .gte, compare_eq_true_iff .gt, compare_eq_true_iff .eq]
  constructor
  · rintro ⟨a, ha, b, hb, hab⟩
    exact ((hleaves ha hb).1 hab).imp (⟨a, ha, b, hb, ·⟩) (⟨a, ha, b, hb, ·⟩)
  · rintro (⟨a, ha, b, hb, hab⟩ | ⟨a, ha, b, hb, hab⟩)
    · exact ⟨a, ha, b, hb, (hleaves ha hb).2 (.inl hab)⟩
    · exact ⟨a, ha, b, hb, (hleaves ha hb).2 (.inr hab)⟩

end Ordered

section Arises

/-- Whether a value is one that paths and literals may lead to: all its leaves have a type. -/
def Arises (R : Registry ι) (v : Value ι) : Prop :=
  ∀ l ∈ v.leaves, ∃ type, conforms R.describe type l = true

/-- What reads as absent has a type, although an embedded record reads as one that may be unset. -/
theorem exists_conforms_absent (type : FieldType ι) :
    ∃ type', conforms R.describe type' type.absent = true := by
  cases type with
  | scalar s => exact ⟨.scalar s, by rw [conforms]; exact s.admits_zero⟩
  | embedded u | optional u => exact ⟨.optional u, by simp [FieldType.absent, conforms]⟩
  | repeated e => exact ⟨.repeated e, by simp [FieldType.absent, conforms, itemsConform]⟩
  | map key e => exact ⟨.map key e, by simp [FieldType.absent, conforms, pairsConform]⟩

/-- What a member resolves to below a conforming record is made of values that conform to some type.
-/
theorem LeafBelow.exists_conforms {t : ι} {values? : Option (List (Value ι))} {names : List String}
    {l : Value ι} (h : R.LeafBelow t values? names l) (hvalues : R.ConformIfPresent t values?) :
    ∃ type, conforms R.describe type l = true := by
  induction h with
  | @value t values? name field hfield htype =>
    cases hv : R.fieldIn? t values? name with
    | none => exact exists_conforms_absent field.type
    | some v => exact ⟨field.type, conforms_of_fieldIn? hvalues hfield hv⟩
  | element hfield htype hmem =>
    exact ⟨_, mem_itemsConform (itemsConform_elements hvalues hfield htype) hmem⟩
  | inner hfield htype _ ih => exact ih (conformIfPresent_inner hvalues hfield htype)
  | each hfield htype hmem _ ih =>
    have hitem := mem_itemsConform (itemsConform_elements hvalues hfield htype) hmem
    exact ih fun _ hinner ↦ fieldsConform_valuesOf? (.inl rfl) hitem hinner

/-- A literal conforms to the type of its kind, so a filter compares conforming values only. -/
theorem exists_conforms_literal (l : Filter.Literal) :
    ∃ type, conforms R.describe type l.value = true := by
  cases l with
  | text s => exact ⟨.scalar .string, by simp [Filter.Literal.value, conforms, Scalar.admits]⟩
  | integer n =>
    refine ⟨.scalar (.integer .int64), ?_⟩
    have hcontains : IntegerType.int64.contains n.toInt = true :=
      IntegerType.contains_iff.2 ⟨n.le_toInt, n.toInt_le⟩
    simp [Filter.Literal.value, conforms, Scalar.admits, IntegerType.isSigned, hcontains]
  | float x =>
    exact ⟨.scalar (.float .double), by simp [Filter.Literal.value, conforms, Scalar.admits]⟩

theorem exists_conforms_literalOf (word : String) :
    ∃ type, conforms R.describe type (literalOf word) = true := by
  unfold literalOf
  split
  · exact ⟨.scalar .bool, by simp [conforms, Scalar.admits]⟩
  · split
    · exact ⟨.scalar .bool, by simp [conforms, Scalar.admits]⟩
    · exact ⟨.scalar .string, by simp [conforms, Scalar.admits]⟩

/-- What one side of a comparison resolves to arises. -/
theorem arises_of_resolve {t : ι} (r : Record R t) {c : Filter.Comparable} {v : Value ι}
    (hv : c.resolve R t r.fields = .ok v) : R.Arises v := by
  intro l hl
  rcases (Filter.Comparable.mem_leaves_resolve r.fields_conform hv).1 hl with ⟨l⟩ | hfield | h
  · exact exists_conforms_literal l
  · exact exists_conforms_literalOf _
  · exact h.exists_conforms (conformIfPresent_some r.fields_conform)

end Arises

/-- What the outcomes of the operators on two values have to do with each other. -/
structure Coherent (R : Registry ι) (u v : Value ι) : Prop where
  gt_swap : (R.compare .gt u v).toOption = (R.compare .lt v u).toOption
  gte_swap : (R.compare .gte u v).toOption = (R.compare .lte v u).toOption
  eq_comm : R.compare .eq u v = R.compare .eq v u
  ne_comm : R.compare .ne u v = R.compare .ne v u
  ne_eq_not : u.isList = false → v.isList = false →
    ∃ b, R.compare .eq u v = .ok b ∧ R.compare .ne u v = .ok !b
  gte_iff : LeavesOrdered u v →
    (R.compare .gte u v = .ok true ↔ R.compare .gt u v = .ok true ∨ R.compare .eq u v = .ok true)

/-- If no two record types have one name, the outcomes of the operators belong together on all values
that paths and literals lead to. -/
theorem operators_coherent (hnames : Function.Injective R.nameOf) :
    (∀ (t : ι) (r : Record R t) (c : Filter.Comparable) (v : Value ι),
      c.resolve R t r.fields = .ok v → R.Arises v) ∧
    ∀ u v : Value ι, R.Arises u → R.Arises v → R.Coherent u v := by
  refine ⟨fun t r c v hv ↦ arises_of_resolve r hv, ?_⟩
  intro u v hu hv
  have hequal : ∀ a ∈ u.leaves, ∀ b ∈ v.leaves, R.equal a b = R.equal b a := by
    intro a ha b hb
    obtain ⟨type, ha⟩ := hu a ha
    obtain ⟨type', hb⟩ := hv b hb
    exact equal_comm hnames ha hb
  have hswap (op : Operator) (hop : op ≠ .has) :
      (R.compare op u v).toOption = (R.compare op.converse v u).toOption :=
    compare_converse hop hequal
  constructor
  case gt_swap => exact hswap .gt (by decide)
  case gte_swap => exact hswap .gte (by decide)
  case eq_comm => exact Outcome.eq_of_toOption_eq (hswap .eq (by decide)) (isOk_compare .eq u v)
  case ne_comm => exact Outcome.eq_of_toOption_eq (hswap .ne (by decide)) (isOk_compare .ne u v)
  case ne_eq_not =>
    intro hu hv
    refine ⟨R.equal u v, ?_, ?_⟩ <;> rw [compare, hu, hv] <;> rfl
  case gte_iff => exact gte_iff_of_leavesOrdered

section Example

open Sample

theorem nameOf_library_injective : Function.Injective library.nameOf := by
  intro t u h
  cases t <;> cases u <;> first | rfl | exact absurd h (by decide)

/-- The weights of grandchildren, in lists inside a list, and the number of a node can be compared from
either side. -/
theorem operators_coherent_family :
    Function.Injective library.nameOf ∧
      library.Coherent
        (.list [.list [], .list [.number (.float (.zero .binary64 false)),
          .number (.float (.zero .binary64 false))]])
        (.ofUnsigned 0) := by
  obtain ⟨harises, hcoherent⟩ := operators_coherent nameOf_library_injective
  refine ⟨nameOf_library_injective, hcoherent _ _ ?_ ?_⟩
  · exact harises .node Filter.family (.member ["children", "children", "weight"]) _ rfl
  · exact harises .node Filter.family (.member ["id"]) _ rfl

end Example

end Registry

end RecordQuery
