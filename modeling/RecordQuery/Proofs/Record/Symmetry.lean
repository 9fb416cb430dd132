import RecordQuery.Proofs.Number.Order
import RecordQuery.Proofs.Record.Equality

/-!
# Equality across types

Equality is symmetric also between values of different types, provided that no two record types have
one name. Numbers of different representations are compared in one way from both sides. Equality of
maps looks for the pairs of the first one in the second one only; but the maps have as many pairs as
each other, and whatever the types of their keys, a key equals at most one key on the other side. So no
pair of the second map is left over.
-/

namespace RecordQuery

theorem Number.same_comm (a b : Number) : a.same b = b.same a := by
  rw [same, same, ← compare?_swap a b]
  cases a.compare? b with
  | none => rfl
  | some o => cases o <;> rfl

/-- Keys of one type are told apart by their ranks. -/
theorem KeyType.eq_of_rank_eq {ι : Type} {key : KeyType} {k k' : Value ι}
    (hk : key.scalar.admits k = true) (hk' : key.scalar.admits k' = true)
    (h : k.rank = k'.rank) : k = k' := by
  cases key with
  | bool =>
    obtain ⟨b, rfl⟩ : ∃ b, k = .bool b := by simpa [scalar] using Scalar.admits_cases hk
    obtain ⟨b', rfl⟩ : ∃ b, k' = .bool b := by simpa [scalar] using Scalar.admits_cases hk'
    have hbits : b.toNat = b'.toNat := Int.ofNat.inj (List.singleton_injective h)
    cases b <;> cases b' <;> first | rfl | exact nomatch hbits
  | string =>
    obtain ⟨s, rfl⟩ : ∃ s, k = .string s := by simpa [scalar] using Scalar.admits_cases hk
    obtain ⟨s', rfl⟩ : ∃ s, k' = .string s := by simpa [scalar] using Scalar.admits_cases hk'
    exact congrArg Value.string (Value.string_rank_inj h)
  | integer t =>
    cases ht : t.isSigned with
    | true =>
      obtain ⟨n, rfl⟩ : ∃ n, k = .number (.signed n) := by
        simpa [scalar, ht] using Scalar.admits_cases hk
      obtain ⟨n', rfl⟩ : ∃ n, k' = .number (.signed n) := by
        simpa [scalar, ht] using Scalar.admits_cases hk'
      obtain rfl : n = n' := Int64.toInt_inj.1 (List.singleton_injective h)
      rfl
    | false =>
      obtain ⟨n, rfl⟩ : ∃ n, k = .number (.unsigned n) := by
        simpa [scalar, ht] using Scalar.admits_cases hk
      obtain ⟨n', rfl⟩ : ∃ n, k' = .number (.unsigned n) := by
        simpa [scalar, ht] using Scalar.admits_cases hk'
      obtain rfl : n = n' := UInt64.toNat_inj.1 (Int.ofNat.inj (List.singleton_injective h))
      rfl

namespace Registry

variable {ι : Type} [DecidableEq ι] {R : Registry ι}

section Keys

variable {key key' : KeyType} {k k' : Value ι}

/-- Equal keys have one rank, also keys of different types. -/
theorem rank_eq_of_equal (hk : key.scalar.admits k = true) (hk' : key'.scalar.admits k' = true)
    (h : R.equal k k' = true) : k.rank = k'.rank := by
  have hints {a b : Number} {m n : Int} (ha : a.integer? = some m) (hb : b.integer? = some n)
      (h : a.same b = true) : [m] = [n] := by
    rw [Number.same, beq_iff_eq, Number.compare?_integers ha hb] at h
    rw [compareInts_eq_eq h]
  rcases KeyType.admits_cases hk with ⟨b, rfl⟩ | ⟨s, rfl⟩ | ⟨n, rfl⟩ | ⟨n, rfl⟩ <;>
    rcases KeyType.admits_cases hk' with ⟨b', rfl⟩ | ⟨s', rfl⟩ | ⟨n', rfl⟩ | ⟨n', rfl⟩ <;>
    simp only [equal, Bool.false_eq_true, beq_iff_eq] at h
  case inl.inl => rw [h]
  case inr.inl.inr.inl => rw [h]
  all_goals exact hints rfl rfl h

/-- The keys of a conforming map have distinct ranks, so no two of them compare equal. -/
theorem nodup_ranks {pairs : List (Value ι × Value ι)} {type : FieldType ι}
    (h : pairsConform R.describe key type pairs = true) :
    (pairs.map fun pair ↦ pair.1.rank).Nodup := by
  have hnodup := List.Nodup.of_map _ (nodup_keys h)
  refine hnodup.map_on fun p hp q hq hrank ↦ ?_
  exact List.inj_on_of_nodup_map (nodup_keys h) hp hq
    (KeyType.eq_of_rank_eq (admits_of_mem h hp).1 (admits_of_mem h hq).1 hrank)

end Keys

theorem itemsEqual_comm {as bs : List (Value ι)}
    (h : ∀ a ∈ as, ∀ b ∈ bs, R.equal a b = R.equal b a) :
    R.itemsEqual as bs = R.itemsEqual bs as := by
  induction as generalizing bs with
  | nil => cases bs <;> simp [itemsEqual]
  | cons a as ih =>
    cases bs with
    | nil => simp [itemsEqual]
    | cons b bs =>
      rw [itemsEqual, itemsEqual, h a List.mem_cons_self b List.mem_cons_self]
      rw [ih fun a' ha b' hb ↦ h a' (List.mem_cons_of_mem _ ha) b' (List.mem_cons_of_mem _ hb)]

/-- Maps with equally many pairs cannot be found in each other in one direction only. -/
theorem pairsWithin_swap {key key' : KeyType} {type type' : FieldType ι}
    {as bs : List (Value ι × Value ι)} (has : pairsConform R.describe key type as = true)
    (hbs : pairsConform R.describe key' type' bs = true) (hlength : as.length = bs.length)
    (h : ∀ p ∈ as, ∀ q ∈ bs, R.equal p.1 q.1 = R.equal q.1 p.1 ∧ R.equal p.2 q.2 = R.equal q.2 p.2)
    (hwithin : R.pairsWithin as bs = true) : R.pairsWithin bs as = true := by
  rw [pairsWithin_iff] at hwithin ⊢
  refine exists_of_nodup_map (nodup_ranks has) (nodup_ranks hbs) hlength fun p hp ↦ ?_
  obtain ⟨q, hq, hk, hv⟩ := hwithin p hp
  have hrank := rank_eq_of_equal (admits_of_mem has hp).1 (admits_of_mem hbs hq).1 hk
  obtain ⟨hkeys, hvalues⟩ := h p hp q hq
  exact ⟨q, hq, hrank, hkeys ▸ hk, hvalues ▸ hv⟩

theorem equal_map_comm {key key' : KeyType} {type type' : FieldType ι}
    {as bs : List (Value ι × Value ι)} (has : pairsConform R.describe key type as = true)
    (hbs : pairsConform R.describe key' type' bs = true)
    (h : ∀ p ∈ as, ∀ q ∈ bs, R.equal p.1 q.1 = R.equal q.1 p.1 ∧ R.equal p.2 q.2 = R.equal q.2 p.2) :
    R.equal (.map as) (.map bs) = R.equal (.map bs) (.map as) := by
  rw [Bool.eq_iff_iff]
  simp only [equal, Bool.and_eq_true, beq_iff_eq]
  constructor
  · rintro ⟨hlength, hwithin⟩
    exact ⟨hlength.symm, pairsWithin_swap has hbs hlength h hwithin⟩
  · rintro ⟨hlength, hwithin⟩
    refine ⟨hlength.symm, pairsWithin_swap hbs has hlength (fun q hq p hp ↦ ?_) hwithin⟩
    exact ⟨(h p hp q hq).1.symm, (h p hp q hq).2.symm⟩

theorem equal_record_comm (hnames : Function.Injective R.nameOf) {t u : ι} {as bs : List (Value ι)}
    (has : fieldsConform R.describe (R.describe t).fields as = true)
    (hbs : fieldsConform R.describe (R.describe u).fields bs = true) :
    R.equal (.record t as) (.record u bs) = R.equal (.record u bs) (.record t as) := by
  by_cases hname : R.nameOf t = R.nameOf u
  · obtain rfl := hnames hname
    have ha : conforms R.describe (.embedded t) (.record t as) = true := by
      rw [conforms, beq_self_eq_true, has, Bool.and_self]
    have hb : conforms R.describe (.embedded t) (.record t bs) = true := by
      rw [conforms, beq_self_eq_true, hbs, Bool.and_self]
    exact Bool.eq_iff_iff.2 ⟨equal_symm ha hb, equal_symm hb ha⟩
  · rw [equal, equal, beq_eq_false_iff_ne.2 hname, beq_eq_false_iff_ne.2 (Ne.symm hname),
      Bool.false_and, Bool.false_and]

theorem equal_eq_false_of_shape {a b : Value ι} (h : a.shape ≠ b.shape) : R.equal a b = false := by
  cases a <;> cases b <;> first | exact absurd rfl h | simp [equal]

/-- Equality is symmetric across types. -/
theorem equal_comm (hnames : Function.Injective R.nameOf) {type type' : FieldType ι} {a b : Value ι}
    (ha : conforms R.describe type a = true) (hb : conforms R.describe type' b = true) :
    R.equal a b = R.equal b a := by
  by_cases hshape : a.shape = b.shape
  · match a, b, hshape with
    | .null, .null, _ => rfl
    | .bool x, .bool y, _ => rw [equal, equal, Bool.beq_comm]
    | .number m, .number n, _ => rw [equal, equal, Number.same_comm]
    | .string s, .string s', _ => rw [equal, equal, Bool.beq_comm]
    | .list as, .list bs, _ =>
      obtain ⟨e, -, has⟩ := exists_repeated_of_conforms ha
      obtain ⟨e', -, hbs⟩ := exists_repeated_of_conforms hb
      rw [equal, equal]
      refine itemsEqual_comm fun a hmem b hmem' ↦ ?_
      have hsize := List.sizeOf_lt_of_mem hmem
      exact equal_comm hnames (mem_itemsConform has hmem) (mem_itemsConform hbs hmem')
    | .map as, .map bs, _ =>
      obtain ⟨key, e, -, has⟩ := exists_map_of_conforms ha
      obtain ⟨key', e', -, hbs⟩ := exists_map_of_conforms hb
      refine equal_map_comm has hbs fun (k, v) hp (k', v') hq ↦ ?_
      have hsize := List.sizeOf_lt_of_mem hp
      obtain ⟨hk, hv⟩ := admits_of_mem has hp
      obtain ⟨hk', hv'⟩ := admits_of_mem hbs hq
      have hkey : conforms R.describe (.scalar key.scalar) k = true := by rwa [conforms]
      have hkey' : conforms R.describe (.scalar key'.scalar) k' = true := by rwa [conforms]
      exact ⟨equal_comm hnames hkey hkey', equal_comm hnames hv hv'⟩
    | .record t as, .record u bs, _ =>
      exact equal_record_comm hnames (embedded_or_optional_of_conforms ha).2
        (embedded_or_optional_of_conforms hb).2
  · rw [equal_eq_false_of_shape hshape, equal_eq_false_of_shape (Ne.symm hshape)]
termination_by sizeOf a
decreasing_by all_goals simp at hsize ⊢; omega

end Registry

end RecordQuery
