import RecordQuery.Proofs.Order.Compile
import RecordQuery.Proofs.Order.Sort
import RecordQuery.Proofs.Outcome
import RecordQuery.Sample.Library

/-!
# Orders followed by default orders

An order followed by a default one compares records by the first and, where they tie, by the second.
A default key whose path the first order has is left out: when it would decide, the records tie under
that path, in either direction. Sorting by the default order and then, stably, by the first one comes
to the same, since the result is sorted by both together and keeps what ties under both.
-/

namespace RecordQuery

variable {ι : Type} [DecidableEq ι] {R : Registry ι} {t : ι}

theorem Comparator.firstDifference_append (l m : List Ordering) :
    firstDifference (l ++ m) = (firstDifference l).then (firstDifference m) := by
  induction l with
  | nil => rfl
  | cons o l ih => rw [List.cons_append, firstDifference_cons, firstDifference_cons, ih,
      Ordering.then_assoc]

/-- What compares as equal can be left out. -/
theorem Comparator.firstDifference_filter {α : Type} {p : α → Bool} {f : α → Ordering} {l : List α}
    (h : ∀ a ∈ l, p a = false → f a = .eq) :
    firstDifference ((l.filter p).map f) = firstDifference (l.map f) := by
  induction l with
  | nil => rfl
  | cons a l ih =>
    obtain ⟨ha, hl⟩ := List.forall_mem_cons.1 h
    rw [List.filter_cons, List.map_cons, firstDifference_cons, ← ih hl]
    split
    · rw [List.map_cons, firstDifference_cons]
    · rename_i hp
      rw [ha (by simpa using hp)]
      rfl

/-- An order followed by a default one compiles if both do. -/
theorem Order.exists_compile_thenBy_iff {order default : Order} :
    (∃ m, (order.thenBy default).compile R t = .ok m) ↔
      (∃ c, order.compile R t = .ok c) ∧ ∃ d, default.compile R t = .ok d := by
  simp only [exists_compile_iff, thenBy, List.forall_mem_append]
  refine and_congr_right fun horder ↦ ⟨?_, ?_⟩
  · intro hnew key hkey
    by_cases hold : ∃ key' ∈ order.keys, key'.path = key.path
    · -- the path of a key that is left out is checked as one of the first order
      obtain ⟨key', hkey', hpath⟩ := hold
      exact hpath ▸ horder key' hkey'
    · exact hnew key (List.mem_filter.2 ⟨hkey, by simpa using hold⟩)
  · intro hdefault key hkey
    exact hdefault key (List.mem_of_mem_filter hkey)

namespace Comparator

variable {m c d : Comparator R t}

/-- Where records tie under the first order, the default keys that are left out tie as well. -/
theorem firstDifference_newKeys {a b : Record R t} (h : c.compare a b = .eq) :
    firstDifference ((c.order.newKeys d.order).map fun key ↦ key.compare R t a b) =
      d.compare a b := by
  rw [d.compare_eq_firstDifference]
  apply firstDifference_filter
  intro key _ hold
  rw [compare_eq_firstDifference, firstDifference_eq_eq_iff] at h
  obtain ⟨key', hkey', hpath⟩ : ∃ key' ∈ c.order.keys, key'.path = key.path := by
    simpa using hold
  exact OrderKey.compare_eq_eq_of_path hpath.symm (h _ (List.mem_map_of_mem hkey'))

/-- The merged comparator compares lexicographically: keys that the second order repeats never get
to decide. -/
theorem compare_thenBy (horder : m.order = c.order.thenBy d.order) (a b : Record R t) :
    m.compare a b = (c.compare a b).then (d.compare a b) := by
  let f (key : OrderKey) : Ordering := key.compare R t a b
  calc m.compare a b
    _ = firstDifference ((c.order.keys ++ c.order.newKeys d.order).map f) := by
      rw [compare_eq_firstDifference, horder]
      rfl
    _ = (c.compare a b).then (firstDifference ((c.order.newKeys d.order).map f)) := by
      rw [List.map_append, firstDifference_append, ← compare_eq_firstDifference]
    _ = (c.compare a b).then (d.compare a b) := by
      cases h : c.compare a b with
      | eq => rw [firstDifference_newKeys h]
      | lt | gt => rfl

/-- Of two records that tie under the last order sorted by, the one that the order before puts first
comes first. -/
theorem pairwise_sort_sort (horder : m.order = c.order.thenBy d.order)
    (records : List (Record R t)) :
    (c.sort (d.sort records)).Pairwise fun a b ↦ (m.compare a b).isLE = true := by
  rw [List.pairwise_iff_forall_sublist]
  intro a b hab
  have hle := List.pairwise_iff_forall_sublist.1 (c.pairwise_sort (d.sort records)) hab
  rw [compare_thenBy horder]
  cases h : c.compare a b with
  | lt => rfl
  | gt => simp [h] at hle
  | eq =>
    have htie := hab.filter fun b ↦ c.compare a b == .eq
    rw [c.filter_tie_sort, List.filter_eq_self.2 (by simp [c.compare_self, h])] at htie
    exact List.pairwise_iff_forall_sublist.1 (d.pairwise_sort records)
      (htie.trans List.filter_sublist)

theorem filter_tie_sort_sort (horder : m.order = c.order.thenBy d.order) (a : Record R t)
    (records : List (Record R t)) :
    (c.sort (d.sort records)).filter (fun b ↦ m.compare a b == .eq) =
      records.filter fun b ↦ m.compare a b == .eq := by
  have htie : (fun b ↦ m.compare a b == .eq) =
      fun b ↦ (c.compare a b == .eq) && (d.compare a b == .eq) := by
    funext b
    rw [compare_thenBy horder]
    cases c.compare a b <;> rfl
  calc (c.sort (d.sort records)).filter (fun b ↦ m.compare a b == .eq)
    _ = ((c.sort (d.sort records)).filter fun b ↦ c.compare a b == .eq).filter
        fun b ↦ d.compare a b == .eq := by
      rw [htie, List.filter_filter]
      simp only [Bool.and_comm]
    _ = ((d.sort records).filter fun b ↦ d.compare a b == .eq).filter
        fun b ↦ c.compare a b == .eq := by
      rw [c.filter_tie_sort, List.filter_comm]
    _ = records.filter fun b ↦ m.compare a b == .eq := by
      rw [d.filter_tie_sort, List.filter_filter, htie]

/-- Sorting by the merged order is sorting by the second order and then, stably, by the first. -/
theorem sort_thenBy (horder : m.order = c.order.thenBy d.order) (records : List (Record R t)) :
    m.sort records = c.sort (d.sort records) := by
  apply m.eq_of_filter_tie_eq
  · have hsorted : (c.sort (d.sort records)).Perm records :=
      (c.sort_perm _).trans (d.sort_perm records)
    exact (m.sort_perm records).trans hsorted.symm
  · exact m.pairwise_sort records
  · exact pairwise_sort_sort horder records
  · intro a
    rw [m.filter_tie_sort, filter_tie_sort_sort horder]

end Comparator

namespace Order

/-- An order followed by a default one compiles exactly if both compile. It then compares records by
the first order and, where they tie, by the default one, so that sorting by it is sorting by the
default order and then by the first one. -/
theorem thenBy_composes (R : Registry ι) (t : ι) (order default : Order) :
    ((∃ m, (order.thenBy default).compile R t = .ok m) ↔
      (∃ c, order.compile R t = .ok c) ∧ ∃ d, default.compile R t = .ok d) ∧
    ∀ m c d, (order.thenBy default).compile R t = .ok m → order.compile R t = .ok c →
      default.compile R t = .ok d →
        (∀ a b, m.compare a b = (c.compare a b).then (d.compare a b)) ∧
          ∀ records, m.sort records = c.sort (d.sort records) := by
  refine ⟨exists_compile_thenBy_iff, ?_⟩
  intro m c d hm hc hd
  have horder : m.order = c.order.thenBy d.order := by
    rw [order_compile hm, order_compile hc, order_compile hd]
  exact ⟨Comparator.compare_thenBy horder, Comparator.sort_thenBy horder⟩

section Example

open Sample

/-- A sort key with one segment. -/
private def keyOf (name : String) (hname : isSegment name = true) (direction : Direction) :
    OrderKey :=
  ⟨⟨[name], by simp, by simpa using hname⟩, direction⟩

/-- The default order has the key of the order, in the other direction, and one more. -/
theorem thenBy_composes_with_weight_left_out :
    ∃ (order default : Order) (m c d : Comparator library .book),
      order.keys = [keyOf "weight" (by decide) .desc] ∧
      default.keys = [keyOf "weight" (by decide) .asc, keyOf "name" (by decide) .asc] ∧
      (order.thenBy default).compile library .book = .ok m ∧
      order.compile library .book = .ok c ∧ default.compile library .book = .ok d ∧
      ∀ records, m.sort records = c.sort (d.sort records) := by
  let order : Order := ⟨[keyOf "weight" (by decide) .desc], by decide⟩
  let default : Order :=
    ⟨[keyOf "weight" (by decide) .asc, keyOf "name" (by decide) .asc], by decide⟩
  obtain ⟨c, hc⟩ := Outcome.exists_eq_ok_of_isOk (x := order.compile library .book) (by decide +kernel)
  obtain ⟨d, hd⟩ :=
    Outcome.exists_eq_ok_of_isOk (x := default.compile library .book) (by decide +kernel)
  obtain ⟨hcompile, hcomposes⟩ := thenBy_composes library .book order default
  obtain ⟨m, hm⟩ := hcompile.2 ⟨⟨c, hc⟩, d, hd⟩
  exact ⟨order, default, m, c, d, rfl, rfl, hm, hc, hd, (hcomposes m c d hm hc hd).2⟩

end Example

end Order

end RecordQuery
