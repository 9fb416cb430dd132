import RecordQuery.Proofs.Filter.Ordered
import RecordQuery.Proofs.Order.Compile
import RecordQuery.Proofs.Order.Keys
import RecordQuery.Record.Edit
import RecordQuery.Sample.Library

/-!
# Sorting and the operators of filters

Records are sorted by a path as the operators of a filter compare the values that the path reads. They
part where a value is not a number: for the operators it stands in no order to anything, for sorting it
comes after every number and ties with its like.
-/

namespace RecordQuery

section Values

variable {ι : Type} {kind : Kind ι} {u v : Value ι}

/-- Whether a value is a double that is not a number. -/
def Value.isNaN : Value ι → Bool
  | number n => n.isNaN
  | _ => false

/-- Two values of one kind are two numbers or two texts, unless they are truth values. -/
theorem Kind.represents_pair_cases (hkind : kind ≠ .bool) (hu : kind.represents u = true)
    (hv : kind.represents v = true) :
    (∃ m n, u = .number m ∧ v = .number n) ∨ ∃ s s', u = .string s ∧ v = .string s' := by
  rcases Kind.represents_cases hu with ⟨b, rfl⟩ | ⟨m, rfl⟩ | ⟨s, rfl⟩ <;>
    rcases Kind.represents_cases hv with ⟨b', rfl⟩ | ⟨n, rfl⟩ | ⟨s', rfl⟩ <;>
      cases kind <;> simp_all [Kind.represents]

theorem Value.sortCompare_of_isNaN (hkind : kind ≠ .bool) (hu : kind.represents u = true)
    (hv : kind.represents v = true) (h : (u.isNaN || v.isNaN) = true) :
    u.sortCompare v = compareBools u.isNaN v.isNaN := by
  rcases Kind.represents_pair_cases hkind hu hv with ⟨m, n, rfl, rfl⟩ | ⟨s, s', rfl, rfl⟩
  · simp only [isNaN] at h
    rw [sortCompare, Number.totalCompare, isNaN, isNaN]
    cases hm : m.isNaN <;> cases hn : n.isNaN
    · simp [hm, hn] at h
    all_goals rfl
  · exact absurd h Bool.false_ne_true

variable [DecidableEq ι] {R : Registry ι}

/-- Values are compared in the order in which they are sorted, if no double among them is not a
number. -/
theorem Value.ordered_sortCompare (hkind : kind ≠ .bool) (hu : kind.represents u = true)
    (hv : kind.represents v = true) (hu' : u.isNaN = false) (hv' : v.isNaN = false) :
    R.Ordered u v (u.sortCompare v) := by
  rcases Kind.represents_pair_cases hkind hu hv with ⟨m, n, rfl, rfl⟩ | ⟨s, s', rfl, rfl⟩
  · exact Registry.ordered_totalCompare (Bool.or_eq_false_iff.2 ⟨hu', hv'⟩)
  · exact Registry.ordered_string s s'

theorem Value.unordered_of_isNaN (hkind : kind ≠ .bool) (hu : kind.represents u = true)
    (hv : kind.represents v = true) (h : (u.isNaN || v.isNaN) = true) : R.Unordered u v := by
  rcases Kind.represents_pair_cases hkind hu hv with ⟨m, n, rfl, rfl⟩ | ⟨s, s', rfl, rfl⟩
  · exact Registry.unordered_number (Number.compare?_eq_none_iff.2 h)
  · exact absurd h Bool.false_ne_true

end Values

/-- The order with one key, ascending. -/
def Order.ascending (path : FieldPath) : Order :=
  ⟨[⟨path, .asc⟩], List.nodup_singleton _⟩

variable {ι : Type} [DecidableEq ι] {R : Registry ι} {t : ι} {path : FieldPath} {kind : Kind ι}
  {u v : Value ι}

/-- An ascending key sorts records by the values that it reads. -/
theorem Comparator.compare_ascending {c : Comparator R t} (hc : c.order = Order.ascending path)
    (hkind : R.sortKind t path = .ok kind) {a b : Record R t}
    (hu : SortKey.Reads ⟨⟨path, .asc⟩, kind⟩ a u) (hv : SortKey.Reads ⟨⟨path, .asc⟩, kind⟩ b v) :
    c.compare a b = u.sortCompare v := by
  have hkey : SortKey.compile R t ⟨path, .asc⟩ = .ok ⟨⟨path, .asc⟩, kind⟩ :=
    SortKey.compile_eq_ok_iff.2 ⟨rfl, hkind⟩
  calc c.compare a b
    _ = Comparator.firstDifference [OrderKey.compare R t ⟨path, .asc⟩ a b] := by
      rw [c.compare_eq_firstDifference, hc]
      rfl
    _ = OrderKey.compare R t ⟨path, .asc⟩ a b := by
      rw [Comparator.firstDifference_cons]
      exact Ordering.then_eq
    _ = (R.sortValue t a.fields path kind).sortCompare (R.sortValue t b.fields path kind) :=
      OrderKey.compare_eq hkey a b
    _ = u.sortCompare v := by rw [hu.2.2, hv.2.2]

/-- Under an ascending key of numbers or texts two records compare as the operators of a filter compare
the values that the key reads in them, unless one of these is not a number. Then the two are unequal
and no ordering operator holds, while that record comes after every one with a number and ties with
every other one of its sort. -/
theorem Comparator.sorts_as_compared (hkind : R.sortKind t path = .ok kind) (hbool : kind ≠ .bool) :
    ∃ c : Comparator R t, (Order.ascending path).compile R t = .ok c ∧
      ∀ a b : Record R t, ∃ u v, SortKey.Reads ⟨⟨path, .asc⟩, kind⟩ a u ∧
        SortKey.Reads ⟨⟨path, .asc⟩, kind⟩ b v ∧
        (u.isNaN = false → v.isNaN = false → R.Ordered u v (c.compare a b)) ∧
        (u.isNaN = true → v.isNaN = false → R.Unordered u v ∧ c.compare a b = .gt) ∧
        (u.isNaN = false → v.isNaN = true → R.Unordered u v ∧ c.compare a b = .lt) ∧
        (u.isNaN = true → v.isNaN = true → R.Unordered u v ∧ c.compare a b = .eq) := by
  have hkey : SortKey.Checked R t ⟨⟨path, .asc⟩, kind⟩ := hkind
  obtain ⟨s, hs, -⟩ := Registry.sortKind_eq_ok_iff.1 hkind
  obtain ⟨c, hc⟩ : ∃ c, (Order.ascending path).compile R t = .ok c := by
    rw [Order.exists_compile_iff]
    intro key hmem
    obtain rfl := List.mem_singleton.1 hmem
    exact ⟨s, hs⟩
  refine ⟨c, hc, fun a b ↦ ?_⟩
  obtain ⟨u, hu⟩ := SortKey.exists_reads hkey a
  obtain ⟨v, hv⟩ := SortKey.exists_reads hkey b
  have hcompare : c.compare a b = u.sortCompare v :=
    Comparator.compare_ascending (Order.order_compile hc) hkind hu hv
  have hunordered (h : (u.isNaN || v.isNaN) = true) :
      R.Unordered u v ∧ c.compare a b = compareBools u.isNaN v.isNaN :=
    ⟨Value.unordered_of_isNaN hbool hu.2.1 hv.2.1 h,
      hcompare.trans (Value.sortCompare_of_isNaN hbool hu.2.1 hv.2.1 h)⟩
  refine ⟨u, v, hu, hv, ?ordered, ?after, ?before, ?ties⟩
  case ordered =>
    intro hu' hv'
    rw [hcompare]
    exact Value.ordered_sortCompare hbool hu.2.1 hv.2.1 hu' hv'
  all_goals
    intro hu' hv'
    rw [hu', hv'] at hunordered
    exact hunordered rfl

section Example

open Sample

private def rating : FieldPath :=
  ⟨["rating"], by simp, by decide⟩

private def rated (bits : Nat) : Record library .book :=
  (Record.default.assign ["rating"] (.number (.float (.ofBits .binary64 bits)))).2

/-- A rating that is not a number sorts after infinity, to which it stands in no order; the two zeros
compare as they sort. -/
theorem sorts_as_compared_ratings : ∃ c : Comparator library .book,
    (Order.ascending rating).compile library .book = .ok c ∧
      (library.Unordered (.number (.float (.ofBits .binary64 0x7FF8000000000000)))
          (.number (.float (.infinite .binary64 false))) ∧
        c.compare (rated 0x7FF8000000000000) (rated 0x7FF0000000000000) = .gt) ∧
      library.Ordered (.number (.float (.zero .binary64 true)))
          (.number (.float (.zero .binary64 false)))
        (c.compare (rated 0x8000000000000000) (rated 0)) := by
  have hkind : library.sortKind .book rating = .ok .float := rfl
  obtain ⟨c, hc, hsorts⟩ := Comparator.sorts_as_compared hkind (by decide)
  refine ⟨c, hc, ?_, ?_⟩
  · obtain ⟨u, v, hu, hv, -, hafter, -⟩ := hsorts (rated 0x7FF8000000000000) (rated 0x7FF0000000000000)
    obtain rfl : .number (.float (.ofBits .binary64 0x7FF8000000000000)) = u :=
      Except.ok.inj hu.1
    obtain rfl : .number (.float (.infinite .binary64 false)) = v := Except.ok.inj hv.1
    exact hafter rfl rfl
  · obtain ⟨u, v, hu, hv, hordered, -⟩ := hsorts (rated 0x8000000000000000) (rated 0)
    obtain rfl : .number (.float (.zero .binary64 true)) = u := Except.ok.inj hu.1
    obtain rfl : .number (.float (.zero .binary64 false)) = v := Except.ok.inj hv.1
    exact hordered rfl rfl

end Example

end RecordQuery
