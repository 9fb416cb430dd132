import RecordQuery.Proofs.Filter.Validation
import RecordQuery.Proofs.Resolve.Leaves
import RecordQuery.Sample.Library

/-!
# A comparison asks for some element

A comparison in a filter holds of a record if it holds between one of the values that its left side
leads to and one of those that its right side leads to. It takes lists apart one level at a time, the
left side first, but that order does not show in the outcome.
-/

namespace RecordQuery

theorem Value.leaves_of_isList {ι : Type} {v : Value ι} (h : v.isList = false) :
    v.leaves = [v] := by
  refine leaves_of_form fun hform ↦ ?_
  rw [isList_eq, hform] at h
  exact nomatch h

namespace Registry

variable {ι : Type} [DecidableEq ι] {R : Registry ι} {op : Operator} {u v : Value ι}

theorem isTrue_iff {outcome : Except Error Bool} : isTrue outcome = true ↔ outcome = .ok true := by
  cases outcome with
  | error e => simp [isTrue]
  | ok b => simp [isTrue]

/-- A comparison holds if it holds between some leaves of its sides. -/
theorem isTrue_compare_iff :
    isTrue (R.compare op u v) = true ↔
      ∃ a ∈ u.leaves, ∃ b ∈ v.leaves, R.compareLeaves op a b = .ok true := by
  unfold compare
  split
  · simp only [isTrue_iff, Except.ok.injEq, List.any_eq_true]
  · rename_i h
    obtain ⟨hu, hv⟩ : u.isList = false ∧ v.isList = false := by simpa using h
    simp only [Value.leaves_of_isList hu, Value.leaves_of_isList hv, List.mem_singleton,
      exists_eq_left, isTrue_iff]

/-- A list on the left side is taken apart first. -/
theorem compare_list_left (items : List (Value ι)) :
    R.compare op (.list items) v =
      .ok (items.any fun item ↦ isTrue (R.compare op item v)) := by
  have hcompare : R.compare op (.list items) v = .ok (isTrue (R.compare op (.list items) v)) := by
    simp [compare, Value.isList, isTrue]
  rw [hcompare, Except.ok.injEq, Bool.eq_iff_iff, isTrue_compare_iff, List.any_eq_true]
  simp only [isTrue_compare_iff, Value.leaves, mem_itemLeaves]
  constructor
  · rintro ⟨a, ⟨item, hitem, ha⟩, hb⟩
    exact ⟨item, hitem, a, ha, hb⟩
  · rintro ⟨item, hitem, a, ha, hb⟩
    exact ⟨a, ⟨item, hitem, ha⟩, hb⟩

/-- A list on the right side is taken apart if there is none on the left side. -/
theorem compare_list_right (hu : u.isList = false) (items : List (Value ι)) :
    R.compare op u (.list items) =
      .ok (items.any fun item ↦ isTrue (R.compare op u item)) := by
  have hcompare : R.compare op u (.list items) = .ok (isTrue (R.compare op u (.list items))) := by
    simp [compare, Value.isList, isTrue]
  rw [hcompare, Except.ok.injEq, Bool.eq_iff_iff, isTrue_compare_iff, List.any_eq_true]
  simp only [isTrue_compare_iff, Value.leaves_of_isList hu, Value.leaves, mem_itemLeaves,
    List.mem_singleton, exists_eq_left]
  constructor
  · rintro ⟨b, ⟨item, hitem, hb⟩, h⟩
    exact ⟨item, hitem, b, hb, h⟩
  · rintro ⟨item, hitem, b, hb, h⟩
    exact ⟨b, ⟨item, hitem, hb⟩, h⟩

end Registry

namespace Filter

variable {ι : Type} [DecidableEq ι] {R : Registry ι} {t : ι} {values : List (Value ι)}

/-- Whether a value is one of those that one side of a comparison leads to. A literal stands for
itself, and so does a single word that names no field. -/
inductive Comparable.Leaf (R : Registry ι) (t : ι) (values : List (Value ι)) :
    Comparable → Value ι → Prop
  | literal (l : Literal) : Leaf R t values (.literal l) l.value
  | word {name : String} (hfield : (R.describe t).field? name = none) :
      Leaf R t values (.member [name]) (Registry.literalOf name)
  | path {segments : List String} {l : Value ι} (h : R.LeafBelow t (some values) segments l) :
      Leaf R t values (.member segments) l

/-- The leaves of the value that an operand resolves to are the leaves that the schema and the
record give it. -/
theorem Comparable.mem_leaves_resolve
    (hvalues : fieldsConform R.describe (R.describe t).fields values = true) {c : Comparable}
    {v l : Value ι} (hv : c.resolve R t values = .ok v) :
    l ∈ v.leaves ↔ c.Leaf R t values l := by
  cases c with
  | literal literal =>
    obtain rfl := Except.ok.inj hv
    have hleaves : (literal.value : Value ι).leaves = [literal.value] := by
      cases literal <;> rfl
    rw [hleaves, List.mem_singleton]
    constructor
    · rintro rfl
      exact .literal literal
    · rintro ⟨⟩
      rfl
  | member segments =>
    cases segments with
    | nil => simp [resolve, Registry.memberValue] at hv
    | cons name names =>
      simp only [resolve, Registry.memberValue] at hv
      split at hv
      · rename_i hfield
        rw [Registry.mem_leaves_resolveBelow (Registry.conformIfPresent_some hvalues) hv]
        constructor
        · exact .path
        · rintro (_ | hnone | h)
          · simp [hnone] at hfield
          · exact h
      · rename_i hfield
        split at hv
        · rename_i hnames
          obtain rfl := List.isEmpty_iff.1 hnames
          obtain rfl := Except.ok.inj hv
          have hnone : (R.describe t).field? name = none := by simpa using hfield
          have hleaves : (Registry.literalOf name : Value ι).leaves =
              [Registry.literalOf name] := by
            unfold Registry.literalOf
            split
            · rfl
            · split <;> rfl
          rw [hleaves, List.mem_singleton]
          constructor
          · rintro rfl
            exact .word hnone
          · rintro (_ | _ | h)
            · rfl
            · obtain ⟨field, hsome⟩ := h.exists_field
              simp [hnone] at hsome
        · simp at hv

def ofRestriction (r : Restriction) : Filter :=
  ⟨some [[[.restriction false r]]]⟩

/-- A filter of one restriction evaluates as the restriction does. -/
theorem evaluate_ofRestriction {r : Restriction} {b : Bool} (h : r.evaluate R t values = .ok b) :
    (ofRestriction r).evaluate R t values = .ok b := by
  cases b <;> simp [ofRestriction, evaluate, evaluateExpression, evaluateSequence, evaluateFactor,
    Term.evaluate, h, Except.map, combine]

/-- A comparison that can be evaluated holds if it holds between some of the values that its sides
lead to. -/
theorem Restriction.exists_evaluate
    (hvalues : fieldsConform R.describe (R.describe t).fields values = true)
    {subject argument : Comparable} {op : Operator}
    (hdefined : Restriction.isDefined R t ⟨subject, some (op, argument)⟩ = true) :
    ∃ b, Restriction.evaluate R t values ⟨subject, some (op, argument)⟩ = .ok b ∧
      (b = true ↔ ∃ l v, subject.Leaf R t values l ∧ argument.Leaf R t values v ∧
        R.compareLeaves op l v = .ok true) := by
  rw [← isOk_evaluate hvalues] at hdefined
  obtain ⟨b, hb⟩ := Outcome.exists_eq_ok_of_isOk hdefined
  refine ⟨b, hb, ?_⟩
  simp only [evaluate] at hb
  cases hlhs : subject.resolve R t values with
  | error e => simp [hlhs] at hb
  | ok lhs =>
    cases hrhs : argument.resolve R t values with
    | error e => simp [hlhs, hrhs] at hb
    | ok rhs =>
      simp only [hlhs, hrhs] at hb
      have hcompare : Registry.isTrue (R.compare op lhs rhs) = true ↔ _ :=
        Registry.isTrue_compare_iff
      rw [Registry.isTrue_iff, hb, Except.ok.injEq] at hcompare
      rw [hcompare]
      simp only [Comparable.mem_leaves_resolve hvalues hlhs,
        Comparable.mem_leaves_resolve hvalues hrhs]
      constructor
      · rintro ⟨l, hl, v, hv, h⟩
        exact ⟨l, v, hl, hv, h⟩
      · rintro ⟨l, v, hl, hv, h⟩
        exact ⟨l, hl, v, hv, h⟩

/-- In a compiled filter, every comparison has an outcome on every record, and it is true if the
operator holds between some value that the left side leads to and some value that the right side leads
to. If the filter is a single comparison, this decides whether it accepts the record. -/
theorem comparison_iff_exists_leaves (p : Predicate R t) (r : Record R t)
    (subject argument : Comparable) (op : Operator) :
    (⟨subject, some (op, argument)⟩ ∈ p.filter.restrictions →
      ∃ b, Restriction.evaluate R t r.fields ⟨subject, some (op, argument)⟩ = .ok b ∧
        (b = true ↔ ∃ l v, subject.Leaf R t r.fields l ∧ argument.Leaf R t r.fields v ∧
          R.compareLeaves op l v = .ok true)) ∧
    (p.filter = ofRestriction ⟨subject, some (op, argument)⟩ →
      (p.accepts r = true ↔ ∃ l v, subject.Leaf R t r.fields l ∧ argument.Leaf R t r.fields v ∧
        R.compareLeaves op l v = .ok true)) := by
  have hrestriction (hmem : ⟨subject, some (op, argument)⟩ ∈ p.filter.restrictions) :=
    Restriction.exists_evaluate r.fields_conform
      (List.all_eq_true.1 (isDefined_of_compiles p) _ hmem)
  refine ⟨hrestriction, ?_⟩
  intro hfilter
  obtain ⟨b, hb, hiff⟩ := hrestriction (by
    rw [hfilter]
    exact List.mem_singleton_self _)
  have haccepts := evaluate_eq_accepts p r
  rw [hfilter, evaluate_ofRestriction hb] at haccepts
  rw [← Except.ok.inj haccepts]
  exact hiff

section Example

open Sample

def nodeFields (label : String) (children : List (Value LibraryType)) : List (Value LibraryType) :=
  [.ofUnsigned 0, .string label, .number (.float (.zero .binary64 false)), .list children, .map [],
    .record .details [.string "", .bool false, .ofSigned 0], .ofUnsigned 0]

/-- A node with a child that has no children and one that has two. -/
def family : Record library .node :=
  ⟨nodeFields "a" [.record .node (nodeFields "b" []),
    .record .node (nodeFields "c" [.record .node (nodeFields "d" []),
      .record .node (nodeFields "e" [])])], by decide +kernel⟩

/-- Whether a node has a grandchild with the label `e`. -/
def hasGrandchild : Predicate library .node where
  filter := ofRestriction
    ⟨.member ["children", "children", "label"], some (.eq, .literal (.text "e"))⟩
  compiles := ⟨false, rfl⟩

theorem comparison_iff_exists_leaves_family :
    Restriction.evaluate library .node family.fields
        ⟨.member ["children", "children", "label"], some (.eq, .literal (.text "e"))⟩ = .ok true ∧
      hasGrandchild.accepts family = true := by
  have hleaf : library.LeafBelow .node (some family.fields) ["children", "children", "label"]
      (.string "e") := by
    refine .each rfl rfl (List.mem_cons_of_mem _ List.mem_cons_self) (.each rfl rfl
      (List.mem_cons_of_mem _ List.mem_cons_self) ?_)
    have hfield : (library.describe .node).field? "label" =
        some (.plain "label" (.scalar .string)) := rfl
    exact (Registry.leafBelow_value_iff hfield fun e he ↦ nomatch he).2 rfl
  have hleaves : ∃ l v, Comparable.Leaf library .node family.fields
      (.member ["children", "children", "label"]) l ∧
      Comparable.Leaf library .node family.fields (.literal (.text "e")) v ∧
      library.compareLeaves .eq l v = .ok true :=
    ⟨_, _, .path hleaf, .literal _, by simp [Registry.compareLeaves, Literal.value, Registry.equal]⟩
  have h := comparison_iff_exists_leaves hasGrandchild family
    (.member ["children", "children", "label"]) (.literal (.text "e")) .eq
  obtain ⟨b, hb, hiff⟩ := h.1 (List.mem_singleton_self _)
  obtain rfl := hiff.2 hleaves
  exact ⟨hb, (h.2 rfl).2 hleaves⟩

end Example

end Filter

end RecordQuery
