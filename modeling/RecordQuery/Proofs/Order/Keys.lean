import RecordQuery.Proofs.Order.Preorder
import RecordQuery.Proofs.Resolve.Walk

/-!
# The values of sort keys

Sort keys are checked along the schema alone, and read along schema and data. The two walks agree: a
path is a sort key of some kind if and only if it resolves, in every record of the type, to a scalar
of that kind. So the value that stands in for a key that cannot be read is never used, and two keys
that are compared are of one kind.
-/

namespace RecordQuery

section Kinds

variable {ι : Type}

/-- Whether a value is a scalar of a kind, a number in the representation of the kind. -/
def Kind.represents : Kind ι → Value ι → Bool
  | .bool, .bool _ => true
  | .int, .number (.signed _) => true
  | .uint, .number (.unsigned _) => true
  | .float, .number (.float _) => true
  | .string, .string _ => true
  | _, _ => false

theorem Kind.represents_cases {kind : Kind ι} {v : Value ι} (h : kind.represents v = true) :
    (∃ b, v = .bool b) ∨ (∃ n, v = .number n) ∨ ∃ text, v = .string text := by
  unfold represents at h
  split at h <;> simp_all

/-- A scalar is of one kind only. -/
theorem Kind.eq_of_represents {kind kind' : Kind ι} {v : Value ι} (h : kind.represents v = true)
    (h' : kind'.represents v = true) : kind = kind' := by
  unfold represents at h h'
  split at h <;> split at h' <;> simp_all

theorem Scalar.represents_of_admits {s : Scalar} {v : Value ι} (h : s.admits v = true) :
    (s.kind : Kind ι).represents v = true := by
  rcases s.admits_cases h with ⟨rfl, b, rfl⟩ | ⟨rfl, text, rfl⟩ | ⟨t, n, rfl, ht, rfl⟩ |
    ⟨t, n, rfl, ht, rfl⟩ | ⟨t, x, rfl, rfl⟩
  · rfl
  · rfl
  · rw [kind, if_pos ht, Kind.represents]
  · rw [kind, if_neg (ht ▸ Bool.false_ne_true), Kind.represents]
  · rfl

end Kinds

variable {ι : Type} [DecidableEq ι] {R : Registry ι} {t : ι} {path : String} {names : List String}
  {kind : Kind ι} {v : Value ι}

namespace Registry

/-- Only fields of scalar types read as scalars. -/
theorem exists_scalar_of_represents {type : FieldType ι}
    (hv : conforms R.describe type v = true ∨ v = type.absent) (h : kind.represents v = true) :
    ∃ s, type = .scalar s ∧ kind = s.kind := by
  cases type with
  | scalar s =>
    have hadmits : s.admits v = true := by
      rcases hv with hv | rfl
      · rwa [conforms] at hv
      · exact s.admits_zero
    exact ⟨s, rfl, Kind.eq_of_represents h (Scalar.represents_of_admits hadmits)⟩
  | embedded | optional | repeated | map =>
    rcases Kind.represents_cases h with ⟨b, rfl⟩ | ⟨n, rfl⟩ | ⟨text, rfl⟩ <;>
      simp [conforms, FieldType.absent] at hv

/-- A path that resolves to a scalar passes through embedded records only, and ends at a field of the
kind of the scalar. The induction is on the path; records may be absent on it. -/
theorem exists_reaches_of_represents {values? : Option (List (Value ι))}
    (hvalues : R.ConformIfPresent t values?) (hread : R.resolveBelow path t values? names = .ok v)
    (h : kind.represents v = true) : ∃ s, R.Reaches t names s ∧ kind = s.kind := by
  induction names generalizing t values? with
  | nil => exact nomatch hread
  | cons name names ih =>
    cases hfield : (R.describe t).field? name with
    | none =>
      rw [resolveBelow_unknown hfield] at hread
      exact nomatch hread
    | some field =>
      by_cases hne : names = []
      · subst hne
        rw [resolveBelow_end hfield] at hread
        obtain rfl := Except.ok.inj hread
        have hvalue : conforms R.describe field.type
              ((R.fieldIn? t values? name).getD field.type.absent) = true ∨
            (R.fieldIn? t values? name).getD field.type.absent = field.type.absent := by
          cases hv : R.fieldIn? t values? name with
          | none => exact .inr rfl
          | some v => exact .inl (conforms_of_fieldIn? hvalues hfield hv)
        obtain ⟨s, htype, hkind⟩ := exists_scalar_of_represents hvalue h
        exact ⟨s, .scalar hfield htype, hkind⟩
      rcases field.type.below_cases with ⟨u, htype⟩ | ⟨u, htype⟩ | htype
      · rw [resolveBelow_below hfield htype hne] at hread
        obtain ⟨s, hs, hkind⟩ := ih (conformIfPresent_inner hvalues hfield htype) hread
        exact ⟨s, .through hfield htype hs, hkind⟩
      · -- Below a repeated field the results form a list, which is no scalar.
        rw [resolveBelow_scatter hfield htype hne] at hread
        cases hschema : R.resolveBelow path u none names with
        | error e =>
          rw [hschema] at hread
          exact nomatch hread
        | ok w =>
          rw [hschema] at hread
          obtain rfl := Except.ok.inj hread
          rcases Kind.represents_cases h with ⟨b, hb⟩ | ⟨n, hn⟩ | ⟨text, htext⟩ <;> contradiction
      · obtain ⟨e, he⟩ := exists_resolveBelow_error path hfield htype hne
        rw [he] at hread
        exact nomatch hread

/-- The check of sort keys, by what the path reads as: the default record alone decides it. -/
theorem sortKindBelow_eq_ok_iff_reads : R.sortKindBelow path t names = .ok kind ↔
    ∀ r : Record R t, ∃ v, R.resolveBelow path t (some r.fields) names = .ok v ∧
      kind.represents v = true := by
  rw [sortKindBelow_eq_ok_iff]
  constructor
  · rintro ⟨s, hs, rfl⟩ r
    obtain ⟨v, hv, hadmits⟩ :=
      hs.exists_resolveBelow (conformIfPresent_some r.fields_conform) path
    exact ⟨v, hv, Scalar.represents_of_admits hadmits⟩
  · intro h
    obtain ⟨v, hv, hkind⟩ := h Record.default
    exact exists_reaches_of_represents (conformIfPresent_some (R.default_conforms t)) hv hkind

end Registry

namespace SortKey

/-- Whether a sort key reads a record as some value of its kind, without any value that stands in
for it. -/
def Reads (k : SortKey ι) (r : Record R t) (v : Value ι) : Prop :=
  R.resolveBelow k.key.path.text t (some r.fields) k.key.path.segments = .ok v ∧
    k.kind.represents v = true ∧ ∀ fallback, R.sortValue t r.fields k.key.path fallback = v

theorem exists_reads {k : SortKey ι} (hk : k.Checked R t) (r : Record R t) : ∃ v, k.Reads r v := by
  obtain ⟨s, hs, hkind⟩ := Registry.sortKind_eq_ok_iff.1 hk
  obtain ⟨hread, hadmits⟩ := hs.sortValue_eq r.fields_conform s.kind
  refine ⟨_, hread, ?_, fun fallback ↦ ?_⟩
  · rw [hkind]
    exact Scalar.represents_of_admits hadmits
  · exact Except.ok.inj ((hs.sortValue_eq r.fields_conform fallback).1.symm.trans hread)

end SortKey

/-- A path is accepted as a sort key of some kind if and only if it resolves in every record to a
scalar of that kind. The keys of a comparator compare two records by the values that they resolve to,
which are of one kind. -/
theorem Comparator.keys_read_scalars :
    (∀ path names kind, R.sortKindBelow path t names = .ok kind ↔
      ∀ r : Record R t, ∃ v, R.resolveBelow path t (some r.fields) names = .ok v ∧
        kind.represents v = true) ∧
    ∀ c : Comparator R t, ∀ k ∈ c.keys, ∀ a b : Record R t, ∃ u v, k.Reads a u ∧ k.Reads b v ∧
      k.compare R t a.fields b.fields = k.key.direction.apply (u.sortCompare v) := by
  refine ⟨fun path names kind ↦ Registry.sortKindBelow_eq_ok_iff_reads, fun c k hk a b ↦ ?_⟩
  obtain ⟨u, hu⟩ := SortKey.exists_reads (c.checked_of_mem hk) a
  obtain ⟨v, hv⟩ := SortKey.exists_reads (c.checked_of_mem hk) b
  refine ⟨u, v, hu, hv, ?_⟩
  calc
    k.compare R t a.fields b.fields
    _ = k.key.direction.apply ((R.sortValue t a.fields k.key.path k.kind).sortCompare
          (R.sortValue t b.fields k.key.path k.kind)) := rfl
    _ = k.key.direction.apply (u.sortCompare v) := by rw [hu.2.2, hv.2.2]

end RecordQuery
