import RecordQuery.Proofs.Cursor.Kept
import RecordQuery.Proofs.Order.Compile

/-!
# Projections keep the sort keys

A projection is what is left of a record under the paths of the order, by induction on the keys. As
that reads like the record along each of the paths, the two have the same sort keys and the order
cannot tell them apart.
-/

namespace RecordQuery

/-- The paths of an order, as lists of names. -/
def Order.paths (order : Order) : List (List String) :=
  order.keys.map fun key ↦ key.path.segments

variable {ι : Type} [DecidableEq ι] {R : Registry ι} {t : ι} {paths : List (List String)} {s : Scalar}

namespace Record

variable {r : Record R t}

/-- Copying one more path to a record that keeps some paths gives the record that keeps them and it.
-/
theorem exists_copy (hdefault : R.DefaultsAreZero) {path : FieldPath}
    (h : R.Reaches t path.segments s) {target : Record R t}
    (htarget : target.fields = R.keepFields paths (R.describe t).fields r.fields) :
    ∃ made, r.copy target path = .ok made ∧
      made.fields = R.keepFields (paths ++ [path.segments]) (R.describe t).fields r.fields := by
  have hmade : R.copyAlong path.segments t r.fields target.fields =
      .ok (R.keepFields (paths ++ [path.segments]) (R.describe t).fields r.fields) := by
    rw [htarget]
    exact h.copyAlong_keepFields hdefault r.fields_conform paths
  refine ⟨⟨_, R.fieldsConform_copyAlong _ _ _ _ target.fields_conform hmade⟩, ?_, rfl⟩
  unfold copy
  split
  · rename_i made' hmade'
    obtain rfl := Except.ok.inj (hmade.symm.trans hmade')
    rfl
  · rename_i e he
    exact nomatch hmade.symm.trans he

/-- Copying the paths of the keys one after another, as the projection does, keeps their paths and
those kept before. The induction is on the keys. -/
theorem exists_foldlM_copy (hdefault : R.DefaultsAreZero) {keys : List OrderKey}
    (hkeys : ∀ key ∈ keys, ∃ s, R.Reaches t key.path.segments s) {target : Record R t}
    (htarget : target.fields = R.keepFields paths (R.describe t).fields r.fields) :
    ∃ made, keys.foldlM (fun target key ↦ r.copy target key.path) target = .ok made ∧
      made.fields = R.keepFields (paths ++ keys.map fun key ↦ key.path.segments)
        (R.describe t).fields r.fields := by
  induction keys generalizing target paths with
  | nil => exact ⟨target, rfl, by rw [htarget, List.map_nil, List.append_nil]⟩
  | cons key keys ih =>
    obtain ⟨s, hs⟩ := hkeys key List.mem_cons_self
    obtain ⟨first, hfirst, hfields⟩ := exists_copy hdefault hs htarget
    obtain ⟨made, hmade, hmadeFields⟩ :=
      ih (fun key' hkey' ↦ hkeys key' (List.mem_cons_of_mem _ hkey')) hfields
    refine ⟨made, ?_, ?_⟩
    · rw [List.foldlM_cons, hfirst]
      exact hmade
    · rw [hmadeFields, List.append_assoc, List.map_cons, List.singleton_append]

end Record

namespace Comparator

variable (c : Comparator R t)

/-- A record can be projected to every order that compiles, to what is left of it under the paths of
the order. -/
theorem exists_project_keepFields (hdefault : R.DefaultsAreZero) (r : Record R t) :
    ∃ projected, r.project c.order = .ok projected ∧
      projected.fields = R.keepFields c.order.paths (R.describe t).fields r.fields := by
  have hstart : (Record.default : Record R t).fields =
      R.keepFields [] (R.describe t).fields r.fields := by
    rw [Registry.keepFields_nil hdefault _ _ r.fields_conform]
    exact hdefault t
  obtain ⟨made, hmade, hfields⟩ :=
    Record.exists_foldlM_copy hdefault (fun _ hkey ↦ c.reaches_of_mem hkey) hstart
  refine ⟨made, ?_, hfields⟩
  rw [Record.project, c.compile_order]
  exact hmade

/-- A projection keeps the sort keys. -/
theorem exists_project (hdefault : R.DefaultsAreZero) (r : Record R t) :
    ∃ projected, r.project c.order = .ok projected ∧
      ∀ k ∈ c.keys, R.sortValue t projected.fields k.key.path k.kind =
        R.sortValue t r.fields k.key.path k.kind := by
  obtain ⟨projected, hproject, hfields⟩ := c.exists_project_keepFields hdefault r
  refine ⟨projected, hproject, ?_⟩
  intro k hk
  have hkey : k.key ∈ c.order.keys := by
    rw [← c.keys_eq.1]
    exact List.mem_map_of_mem hk
  obtain ⟨s, hs⟩ := c.reaches_of_mem hkey
  have hpath : k.key.path.segments ∈ c.order.paths := List.mem_map_of_mem hkey
  rw [Registry.sortValue, Registry.sortValue, hfields,
    hs.resolveBelow_keepFields r.fields_conform hpath]

/-- An order cannot tell a record from its projection. -/
theorem compare_eq_of_sortValue_eq {a b : Record R t}
    (h : ∀ k ∈ c.keys, R.sortValue t a.fields k.key.path k.kind =
      R.sortValue t b.fields k.key.path k.kind) (r : Record R t) :
    c.compare a r = c.compare b r := by
  unfold compare
  congr 1
  apply List.map_congr_left
  intro k hk
  rw [SortKey.compare, SortKey.compare, h k hk]

end Comparator

end RecordQuery
