import RecordQuery.Order.Comparator
import RecordQuery.Proofs.Outcome
import RecordQuery.Proofs.Resolve.SortKey

/-!
# Comparators are total preorders

The values that one sort key takes on the records of a type all have one scalar type, and on such
values the sort order is the order of a rank, a list of integers. Every key therefore compares
records by rank, and a comparator compares them lexicographically by its keys. Values of different
number representations need not be ordered transitively; that they never meet under one key is what
the proofs rest on.
-/

namespace RecordQuery

/-- The rank by which numbers of one representation are sorted: the rank of what is not a number is
greater than that of every other float. -/
def Number.rank : Number → List Int
  | signed n => [n.toInt]
  | unsigned n => [(n.toNat : Int)]
  | float x => if x.isNaN then [1] else [0, x.key]

/-- The rank by which values of one scalar type are sorted. -/
def Value.rank {ι : Type} : Value ι → List Int
  | bool b => [(b.toNat : Int)]
  | number n => n.rank
  | string s => s.toList.map fun c ↦ (c.toNat : Int)
  | _ => []

theorem Value.string_rank_inj {ι : Type} {s s' : String}
    (h : (string s : Value ι).rank = (string s' : Value ι).rank) : s = s' := by
  have hchars : Function.Injective fun c : Char ↦ (c.toNat : Int) := by
    intro c d hcd
    exact Char.toNat_inj.1 (Int.ofNat.inj hcd)
  exact String.toList_inj.1 (List.map_injective_iff.2 hchars h)

theorem compareInts_eq_compare (a b : Int) : compareInts a b = compare a b := by
  unfold compareInts
  split
  · rename_i h
    exact (Std.compare_eq_lt.2 h).symm
  · split
    · rename_i h
      exact (Std.compare_eq_gt.2 h).symm
    · rename_i h1 h2
      exact (Std.compare_eq_iff_eq.2 (by omega)).symm

theorem compare_singleton (a b : Int) : compare [a] [b] = compare a b := by
  rw [List.compare_cons_cons, List.compare_nil_nil]
  cases compare a b <;> rfl

namespace Text

theorem compareChars_eq_compare (s t : List Char) :
    compareChars s t =
      Ord.compare (s.map fun c ↦ (c.toNat : Int)) (t.map fun c ↦ (c.toNat : Int)) := by
  induction s generalizing t with
  | nil => cases t <;> simp [compareChars, List.compare_nil_cons]
  | cons c s ih =>
    cases t with
    | nil => simp [compareChars, List.compare_cons_nil]
    | cons d t =>
      simp only [compareChars, List.map_cons, List.compare_cons_cons, ih]
      rw [← compareInts_eq_compare]
      simp only [compareInts, Int.ofNat_lt]
      split
      · rfl
      · split <;> rfl

end Text

namespace Number

theorem totalCompare_float (x y : Double) :
    (float x).totalCompare (float y) = compare (float x).rank (float y).rank := by
  simp only [totalCompare, isNaN, rank]
  cases hx : x.isNaN <;> cases hy : y.isNaN
  · simp only [Bool.false_eq_true, if_false, compare?, integer?, toDouble, Floating.compare?, hx, hy,
      Bool.or_self, Option.getD_some, List.compare_cons_cons, List.compare_nil_nil,
      compareInts_eq_compare]
    cases compare x.key y.key <;> rfl
  · rfl
  · rfl
  · rfl

theorem totalCompare_integers {a b : Number} {m n : Int} (ha : a.integer? = some m)
    (hb : b.integer? = some n) : a.totalCompare b = compare m n := by
  have hna : a.isNaN = false := by cases a <;> simp_all [integer?, isNaN]
  have hnb : b.isNaN = false := by cases b <;> simp_all [integer?, isNaN]
  simp [totalCompare, hna, hnb, compare?, ha, hb, compareInts_eq_compare]

end Number

theorem compareBools_eq_compare (a b : Bool) :
    compareBools a b = compare (a.toNat : Int) (b.toNat : Int) := by
  cases a <;> cases b <;> decide

/-- Values of one scalar type are sorted by rank. -/
theorem Scalar.sortCompare_eq_compare_rank {ι : Type} {s : Scalar} {u v : Value ι}
    (hu : s.admits u = true) (hv : s.admits v = true) :
    u.sortCompare v = compare u.rank v.rank := by
  rcases s.admits_cases hu with ⟨rfl, a, rfl⟩ | ⟨rfl, a, rfl⟩ | ⟨t, m, rfl, ht, rfl⟩ |
    ⟨t, m, rfl, ht, rfl⟩ | ⟨t, x, rfl, rfl⟩
  · obtain ⟨b, rfl⟩ : ∃ b, v = .bool b := by simpa using Scalar.admits_cases hv
    rw [Value.sortCompare, Value.rank, Value.rank, compare_singleton, compareBools_eq_compare]
  · obtain ⟨b, rfl⟩ : ∃ b, v = .string b := by simpa using Scalar.admits_cases hv
    exact Text.compareChars_eq_compare _ _
  · obtain ⟨n, rfl⟩ : ∃ n, v = .number (.signed n) := by simpa [ht] using Scalar.admits_cases hv
    rw [Value.sortCompare, Number.totalCompare_integers rfl rfl]
    exact (compare_singleton _ _).symm
  · obtain ⟨n, rfl⟩ : ∃ n, v = .number (.unsigned n) := by simpa [ht] using Scalar.admits_cases hv
    rw [Value.sortCompare, Number.totalCompare_integers rfl rfl]
    exact (compare_singleton _ _).symm
  · obtain ⟨y, rfl⟩ : ∃ y, v = .number (.float y) := by simpa using Scalar.admits_cases hv
    exact Number.totalCompare_float x y

variable {ι : Type} [DecidableEq ι] {R : Registry ι} {t : ι}

namespace SortKey

/-- Whether a key has been checked against a record type. -/
def Checked (R : Registry ι) (t : ι) (k : SortKey ι) : Prop :=
  R.sortKind t k.key.path = .ok k.kind

theorem compile_eq_ok_iff {key : OrderKey} {k : SortKey ι} :
    compile R t key = .ok k ↔ k.key = key ∧ k.Checked R t := by
  obtain ⟨key', kind⟩ := k
  unfold compile Checked
  cases h : R.sortKind t key.path with
  | error e =>
    simp only [Except.map, reduceCtorEq, false_iff, not_and]
    rintro rfl
    simp [h]
  | ok kind' =>
    simp only [Except.map, Except.ok.injEq, mk.injEq]
    constructor
    · rintro ⟨rfl, rfl⟩
      exact ⟨rfl, h⟩
    · rintro ⟨rfl, hk⟩
      exact ⟨rfl, Except.ok.inj (h.symm.trans hk)⟩

def rank (k : SortKey ι) (r : Record R t) : List Int :=
  (R.sortValue t r.fields k.key.path k.kind).rank

theorem compare_eq {k : SortKey ι} (hk : k.Checked R t) (a b : Record R t) :
    k.compare R t a.fields b.fields =
      k.key.direction.apply (Ord.compare (k.rank a) (k.rank b)) := by
  obtain ⟨s, hs, -⟩ := Registry.sortKind_eq_ok_iff.1 hk
  have ha := (hs.sortValue_eq a.fields_conform k.kind).2
  have hb := (hs.sortValue_eq b.fields_conform k.kind).2
  rw [compare, Scalar.sortCompare_eq_compare_rank ha hb]
  rfl

theorem compare_eq_eq_iff {k : SortKey ι} (hk : k.Checked R t) (a b : Record R t) :
    k.compare R t a.fields b.fields = .eq ↔ k.rank a = k.rank b := by
  rw [compare_eq hk, ← Std.compare_eq_iff_eq (a := k.rank a)]
  cases k.key.direction <;> cases Ord.compare (k.rank a) (k.rank b) <;> decide

theorem transCmp {k : SortKey ι} (hk : k.Checked R t) :
    Std.TransCmp fun a b : Record R t ↦ k.compare R t a.fields b.fields := by
  have hrank : Std.TransCmp (compareOn (k.rank (R := R) (t := t))) := inferInstance
  have hcompare : (fun a b : Record R t ↦ k.compare R t a.fields b.fields) =
      fun a b ↦ k.key.direction.apply (compareOn k.rank a b) := by
    funext a b
    exact compare_eq hk a b
  rw [hcompare]
  cases k.key.direction with
  | asc => exact hrank
  | desc =>
    have hswap : (fun a b : Record R t ↦ Direction.desc.apply (compareOn k.rank a b)) =
        fun a b ↦ compareOn k.rank b a := by
      funext a b
      exact Std.OrientedCmp.eq_swap.symm
    rw [hswap]
    exact Std.TransCmp.opposite

end SortKey

namespace Comparator

theorem firstDifference_cons (o : Ordering) (l : List Ordering) :
    firstDifference (o :: l) = o.then (firstDifference l) := by
  cases o <;> rfl

theorem firstDifference_eq_eq_iff {l : List Ordering} :
    firstDifference l = .eq ↔ ∀ o ∈ l, o = .eq := by
  induction l with
  | nil => simp [firstDifference]
  | cons o l ih =>
    rw [firstDifference_cons, List.forall_mem_cons, ← ih]
    cases o <;> simp [Ordering.then]

/-- The first difference of transitive comparisons is transitive: the induction goes along the keys.
-/
theorem transCmp_firstDifference {α κ : Type} (compare : κ → α → α → Ordering) (keys : List κ)
    (h : ∀ k ∈ keys, Std.TransCmp (compare k)) :
    Std.TransCmp fun a b ↦ firstDifference (keys.map fun k ↦ compare k a b) := by
  induction keys with
  | nil => exact { eq_swap := rfl, isLE_trans := fun _ _ ↦ rfl }
  | cons k keys ih =>
    have hk := h k List.mem_cons_self
    have hkeys := ih fun k' hk' ↦ h k' (List.mem_cons_of_mem _ hk')
    have hlex : (fun a b ↦ firstDifference ((k :: keys).map fun k ↦ compare k a b)) =
        compareLex (compare k) fun a b ↦ firstDifference (keys.map fun k ↦ compare k a b) := by
      funext a b
      rw [List.map_cons, firstDifference_cons]
      rfl
    rw [hlex]
    infer_instance

theorem keys_eq (c : Comparator R t) :
    c.keys.map SortKey.key = c.order.keys ∧ ∀ k ∈ c.keys, k.Checked R t := by
  have hkeys := Outcome.mapM_eq_ok_iff.1 c.compiled
  generalize c.order.keys = keys at hkeys
  generalize c.keys = sortKeys at hkeys
  induction hkeys with
  | nil => simp
  | cons h _ ih =>
    obtain ⟨rfl, hchecked⟩ := SortKey.compile_eq_ok_iff.1 h
    exact ⟨by rw [List.map_cons, ih.1], List.forall_mem_cons.2 ⟨hchecked, ih.2⟩⟩

theorem checked_of_mem (c : Comparator R t) {k : SortKey ι} (hk : k ∈ c.keys) : k.Checked R t :=
  c.keys_eq.2 k hk

instance transCmp_compare (c : Comparator R t) : Std.TransCmp c.compare :=
  transCmp_firstDifference _ _ fun _ hk ↦ SortKey.transCmp (c.checked_of_mem hk)

theorem compare_self (c : Comparator R t) (a : Record R t) : c.compare a a = .eq :=
  Std.ReflCmp.compare_self

theorem compare_eq_eq_iff (c : Comparator R t) (a b : Record R t) :
    c.compare a b = .eq ↔ ∀ k ∈ c.keys, k.rank a = k.rank b := by
  rw [compare, firstDifference_eq_eq_iff]
  simp only [List.mem_map, forall_exists_index, and_imp, forall_apply_eq_imp_iff₂]
  exact forall₂_congr fun k hk ↦ SortKey.compare_eq_eq_iff (c.checked_of_mem hk) a b

end Comparator

end RecordQuery
