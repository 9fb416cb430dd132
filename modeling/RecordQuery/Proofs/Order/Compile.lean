import RecordQuery.Proofs.Order.Preorder

/-!
# Compiling orders

An order compiles for a record type exactly if each of its paths leads to a scalar, and there is one
comparator of it. Whether two records tie under a key depends on its path only.
-/

namespace RecordQuery

variable {ι : Type} [DecidableEq ι] {R : Registry ι} {t : ι}

theorem Comparator.eq_of_order_eq {c d : Comparator R t} (h : c.order = d.order) : c = d := by
  obtain ⟨order, keys, hkeys⟩ := c
  obtain ⟨order', keys', hkeys'⟩ := d
  obtain rfl : order = order' := h
  obtain rfl := Except.ok.inj (hkeys.symm.trans hkeys')
  rfl

theorem Comparator.compile_order (c : Comparator R t) : c.order.compile R t = .ok c := by
  unfold Order.compile
  split
  · exact congrArg Except.ok (eq_of_order_eq rfl)
  · rename_i e he
    simp [c.compiled] at he

theorem Order.order_compile {order : Order} {c : Comparator R t}
    (h : order.compile R t = .ok c) : c.order = order := by
  unfold compile at h
  split at h
  · obtain rfl := Except.ok.inj h
    rfl
  · exact nomatch h

theorem Comparator.reaches_of_mem (c : Comparator R t) {key : OrderKey}
    (hkey : key ∈ c.order.keys) : ∃ s, R.Reaches t key.path.segments s := by
  rw [← c.keys_eq.1] at hkey
  obtain ⟨k, hk, rfl⟩ := List.mem_map.1 hkey
  obtain ⟨s, hs, -⟩ := Registry.sortKind_eq_ok_iff.1 (c.checked_of_mem hk)
  exact ⟨s, hs⟩

/-- An order compiles if each of its paths reaches a scalar. -/
theorem Order.exists_compile_iff {order : Order} :
    (∃ c, order.compile R t = .ok c) ↔
      ∀ key ∈ order.keys, ∃ s, R.Reaches t key.path.segments s := by
  constructor
  · rintro ⟨c, hc⟩
    rw [← order_compile hc]
    intro key hkey
    exact c.reaches_of_mem hkey
  · intro h
    have hkeys : ∀ key ∈ order.keys, ∃ k, SortKey.compile R t key = .ok k := by
      intro key hkey
      obtain ⟨s, hs⟩ := h key hkey
      have hkind := Registry.sortKind_eq_ok_iff.2 ⟨s, hs, rfl⟩
      exact ⟨⟨key, s.kind⟩, SortKey.compile_eq_ok_iff.2 ⟨rfl, hkind⟩⟩
    obtain ⟨keys, hcompiled⟩ := Outcome.exists_mapM_eq_ok hkeys
    exact ⟨_, Comparator.compile_order ⟨order, keys, hcompiled⟩⟩

/-- How two records compare under a key of an order, the kind of which is read off the type. -/
def OrderKey.compare (R : Registry ι) (t : ι) (key : OrderKey) (a b : Record R t) : Ordering :=
  match SortKey.compile R t key with
  | .ok k => k.compare R t a.fields b.fields
  | .error _ => .eq

theorem OrderKey.compare_eq {key : OrderKey} {k : SortKey ι} (h : SortKey.compile R t key = .ok k)
    (a b : Record R t) : key.compare R t a b = k.compare R t a.fields b.fields := by
  rw [compare, h]

theorem Direction.apply_eq_eq_iff {d : Direction} {o : Ordering} : d.apply o = .eq ↔ o = .eq := by
  cases d
  · exact Iff.rfl
  · exact Ordering.swap_eq_eq

/-- Records that tie under a key tie under every other key with its path, whatever the direction. -/
theorem OrderKey.compare_eq_eq_of_path {key key' : OrderKey} (hpath : key'.path = key.path)
    {a b : Record R t} (h : key.compare R t a b = .eq) : key'.compare R t a b = .eq := by
  unfold compare SortKey.compile at h ⊢
  rw [hpath]
  cases hkind : R.sortKind t key.path with
  | error e => rfl
  | ok kind =>
    rw [hkind] at h
    have htie := Direction.apply_eq_eq_iff.1 h
    rw [← hpath] at htie
    exact Direction.apply_eq_eq_iff.2 htie

/-- A comparator goes through the keys of its order. -/
theorem Comparator.compare_eq_firstDifference (c : Comparator R t) (a b : Record R t) :
    c.compare a b = firstDifference (c.order.keys.map fun key ↦ key.compare R t a b) := by
  have hkeys := Outcome.mapM_eq_ok_iff.1 c.compiled
  unfold compare
  congr 1
  generalize c.order.keys = keys, c.keys = sortKeys at hkeys
  induction hkeys with
  | nil => rfl
  | cons h _ ih => rw [List.map_cons, List.map_cons, OrderKey.compare_eq h, ih]

end RecordQuery
