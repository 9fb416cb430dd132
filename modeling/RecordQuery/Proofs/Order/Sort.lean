import RecordQuery.Proofs.Order.Preorder

/-!
# Sorting and selecting

A stable sort by a total preorder commutes with selecting elements, so the matching records of a
page may be sorted before or after they are selected. Selecting the records that tie with one of
them shows that they keep their order, and there is only one sorted list in which they do.
-/

namespace RecordQuery

section MergeSort

variable {α : Type} {le : α → α → Bool}

theorem append_inj_of_forall {q : α → Bool} {l₁ l₂ m₁ m₂ : List α} (h : l₁ ++ l₂ = m₁ ++ m₂)
    (hl₁ : ∀ a ∈ l₁, q a = true) (hl₂ : ∀ a ∈ l₂, q a = false) (hm₁ : ∀ a ∈ m₁, q a = true)
    (hm₂ : ∀ a ∈ m₂, q a = false) : l₁ = m₁ ∧ l₂ = m₂ := by
  have hfilter {k₁ k₂ : List α} (h₁ : ∀ a ∈ k₁, q a = true) (h₂ : ∀ a ∈ k₂, q a = false) :
      (k₁ ++ k₂).filter q = k₁ := by
    rw [List.filter_append, List.filter_eq_self.2 h₁, List.filter_eq_nil_iff.2, List.append_nil]
    intro a ha
    simp [h₂ a ha]
  have hfirst : l₁ = m₁ := by rw [← hfilter hl₁ hl₂, h, hfilter hm₁ hm₂]
  subst hfirst
  exact ⟨rfl, List.append_cancel_left h⟩

/-- An element stands in a sorted list after those that it is not below and before the others. -/
theorem exists_mergeSort_cons (trans : ∀ a b c, le a b = true → le b c = true → le a c = true)
    (total : ∀ a b, (le a b || le b a) = true) (a : α) (l : List α) :
    ∃ l₁ l₂, (a :: l).mergeSort le = l₁ ++ a :: l₂ ∧ l.mergeSort le = l₁ ++ l₂ ∧
      (∀ b ∈ l₁, (!le a b) = true) ∧ ∀ b ∈ l₂, (!le a b) = false := by
  obtain ⟨l₁, l₂, hcons, hl, hl₁⟩ := List.mergeSort_cons trans total a l
  have hsorted := List.pairwise_mergeSort trans total (a :: l)
  rw [hcons] at hsorted
  have hl₂ := (List.pairwise_cons.1 (List.pairwise_append.1 hsorted).2.1).1
  refine ⟨l₁, l₂, hcons, hl, hl₁, ?_⟩
  intro b hb
  simp [hl₂ b hb]

/-- A stable sort commutes with any filter. -/
theorem mergeSort_filter (trans : ∀ a b c, le a b = true → le b c = true → le a c = true)
    (total : ∀ a b, (le a b || le b a) = true) (p : α → Bool) (l : List α) :
    (l.filter p).mergeSort le = (l.mergeSort le).filter p := by
  induction l with
  | nil => simp
  | cons a l ih =>
    obtain ⟨l₁, l₂, hcons, hl, hl₁, hl₂⟩ := exists_mergeSort_cons trans total a l
    rw [hl, List.filter_append] at ih
    by_cases hp : p a = true
    · rw [List.filter_cons_of_pos hp, hcons, List.filter_append, List.filter_cons_of_pos hp]
      obtain ⟨m₁, m₂, hcons', hm, hm₁, hm₂⟩ := exists_mergeSort_cons trans total a (l.filter p)
      -- the elements before `a` are those that `a` is not below, in both lists
      obtain ⟨h₁, h₂⟩ := append_inj_of_forall (q := fun b ↦ !le a b) (hm.symm.trans ih) hm₁ hm₂
        (fun b hb ↦ hl₁ b (List.mem_of_mem_filter hb))
        (fun b hb ↦ hl₂ b (List.mem_of_mem_filter hb))
      rw [hcons', h₁, h₂]
    · rw [List.filter_cons_of_neg hp, hcons, List.filter_append, List.filter_cons_of_neg hp]
      exact ih

end MergeSort

namespace Comparator

variable {ι : Type} [DecidableEq ι] {R : Registry ι} {t : ι} (c : Comparator R t)

theorem notGT_eq_isLE (a b : Record R t) : (c.compare a b != .gt) = (c.compare a b).isLE := by
  cases c.compare a b <;> rfl

theorem notGT_trans (a b d : Record R t) (hab : (c.compare a b != .gt) = true)
    (hbd : (c.compare b d != .gt) = true) : (c.compare a d != .gt) = true := by
  rw [notGT_eq_isLE] at *
  exact Std.TransCmp.isLE_trans hab hbd

theorem notGT_total (a b : Record R t) :
    ((c.compare a b != .gt) || (c.compare b a != .gt)) = true := by
  have hswap : c.compare b a = (c.compare a b).swap := Std.OrientedCmp.eq_swap
  rw [hswap]
  cases c.compare a b <;> rfl

theorem sort_filter (p : Record R t → Bool) (records : List (Record R t)) :
    c.sort (records.filter p) = (c.sort records).filter p :=
  mergeSort_filter c.notGT_trans c.notGT_total p records

theorem sort_perm (records : List (Record R t)) : (c.sort records).Perm records :=
  List.mergeSort_perm _ _

theorem pairwise_sort_ne_eq {records : List (Record R t)}
    (h : records.Pairwise fun a b ↦ c.compare a b ≠ .eq) :
    (c.sort records).Pairwise fun a b ↦ c.compare a b ≠ .eq := by
  refine (List.Perm.pairwise_iff ?_ (c.sort_perm records)).2 h
  intro a b hab hba
  exact hab (Std.OrientedCmp.eq_symm hba)

theorem pairwise_sort (records : List (Record R t)) :
    (c.sort records).Pairwise fun a b ↦ (c.compare a b).isLE = true := by
  simp only [← notGT_eq_isLE]
  exact List.pairwise_mergeSort c.notGT_trans c.notGT_total records

theorem less_eq_false_iff (a b : Record R t) :
    c.less b a = false ↔ (c.compare a b).isLE = true := by
  have hswap : c.compare b a = (c.compare a b).swap := Std.OrientedCmp.eq_swap
  rw [less, hswap]
  cases c.compare a b <;> decide

/-- Records that tie are left as they are. -/
theorem sort_eq_self {records : List (Record R t)}
    (h : records.Pairwise fun a b ↦ c.compare a b = .eq) : c.sort records = records := by
  refine List.mergeSort_of_pairwise (h.imp ?_)
  intro a b hab
  rw [hab]
  rfl

/-- The records that tie with a given one keep their order. -/
theorem filter_tie_sort (a : Record R t) (records : List (Record R t)) :
    (c.sort records).filter (fun b ↦ c.compare a b == .eq) =
      records.filter fun b ↦ c.compare a b == .eq := by
  rw [← sort_filter]
  apply sort_eq_self
  apply List.Pairwise.imp_of_mem (R := fun _ _ ↦ True) _ (List.pairwise_of_forall fun _ _ ↦ trivial)
  intro b d hb hd _
  have hab : c.compare a b = .eq := by simpa using (List.mem_filter.1 hb).2
  have had : c.compare a d = .eq := by simpa using (List.mem_filter.1 hd).2
  exact Std.TransCmp.eq_trans (Std.OrientedCmp.eq_symm hab) had

/-- A record compares as no greater than itself and the records that come after it in a sorted list. -/
theorem isLE_head {a b : Record R t} {records : List (Record R t)}
    (h : (a :: records).Pairwise fun a b ↦ (c.compare a b).isLE = true) (hb : b ∈ a :: records) :
    (c.compare a b).isLE = true := by
  rcases List.mem_cons.1 hb with rfl | hb
  · rw [c.compare_self]
    rfl
  · exact (List.pairwise_cons.1 h).1 b hb

/-- A stable sort is determined by the records and by the order of those that tie. -/
theorem eq_of_filter_tie_eq {l m : List (Record R t)} (hperm : l.Perm m)
    (hl : l.Pairwise fun a b ↦ (c.compare a b).isLE = true)
    (hm : m.Pairwise fun a b ↦ (c.compare a b).isLE = true)
    (hties : ∀ a, l.filter (fun b ↦ c.compare a b == .eq) =
      m.filter fun b ↦ c.compare a b == .eq) : l = m := by
  induction l generalizing m with
  | nil => exact hperm.nil_eq
  | cons a l ih =>
    cases m with
    | nil => exact absurd hperm (List.not_perm_cons_nil)
    | cons b m =>
      -- each head is least in its list, which holds the other head
      have hab : c.compare a b = .eq := by
        have hle := c.isLE_head hl (hperm.mem_iff.2 List.mem_cons_self)
        have hge := c.isLE_head hm (hperm.mem_iff.1 List.mem_cons_self)
        have hswap : c.compare b a = (c.compare a b).swap := Std.OrientedCmp.eq_swap
        rw [hswap] at hge
        cases h : c.compare a b <;> simp [h] at hle hge ⊢
      have hhead := hties a
      rw [List.filter_cons_of_pos (by simp [c.compare_self]),
        List.filter_cons_of_pos (by simp [hab])] at hhead
      obtain ⟨rfl, -⟩ := List.cons.inj hhead
      rw [ih hperm.cons_inv (List.pairwise_cons.1 hl).2 (List.pairwise_cons.1 hm).2]
      intro d
      have hd := hties d
      rw [List.filter_cons, List.filter_cons] at hd
      split at hd
      · exact (List.cons.inj hd).2
      · exact hd

/-- A comparator is a total preorder on the records of its type, and sorting by it is stable: the
records are permuted so that none comes before a lesser one, and those that tie keep their order. -/
theorem sort_stable_of_total_preorder :
    (∀ a, c.compare a a = .eq) ∧ (∀ a b, c.compare a b = (c.compare b a).swap) ∧
      (∀ a b d, c.compare a b ≠ .gt → c.compare b d ≠ .gt → c.compare a d ≠ .gt) ∧
      ∀ records : List (Record R t), (c.sort records).Perm records ∧
        ((c.sort records).Pairwise fun a b ↦ c.less b a = false) ∧
        ∀ a, (c.sort records).filter (fun b ↦ c.compare a b == .eq) =
          records.filter fun b ↦ c.compare a b == .eq := by
  refine ⟨c.compare_self, fun a b ↦ Std.OrientedCmp.eq_swap, ?_, ?_⟩
  · intro a b d hab hbd
    have had := c.notGT_trans a b d (by simpa using hab) (by simpa using hbd)
    simpa using had
  · intro records
    refine ⟨c.sort_perm records, ?_, fun a ↦ c.filter_tie_sort a records⟩
    simp only [less_eq_false_iff]
    exact c.pairwise_sort records

end Comparator

end RecordQuery
