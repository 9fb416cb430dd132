import RecordQuery.Codec.Base64

/-!
# Base64 reads back what it writes

Writing cuts the bytes into groups of three and reading puts the groups together again, so the proof
follows the recursion of `sextets`, which ends in a group of zero, one or two bytes.
-/

namespace RecordQuery.Codec.Base64

theorem lt_of_mem_sextets {bytes : List UInt8} {n : Nat} (h : n ∈ sextets bytes) : n < 64 := by
  fun_induction sextets bytes with
  | case1 => simp at h
  | case2 x =>
    have hx := x.toNat_lt
    simp only [List.mem_cons, List.not_mem_nil, or_false] at h
    omega
  | case3 x y =>
    have hx := x.toNat_lt
    have hy := y.toNat_lt
    simp only [List.mem_cons, List.not_mem_nil, or_false] at h
    omega
  | case4 x y z rest ih =>
    have hx := x.toNat_lt
    have hy := y.toNat_lt
    have hz := z.toNat_lt
    simp only [List.mem_cons] at h
    rcases h with h | h | h | h | h
    · omega
    · omega
    · omega
    · omega
    · exact ih h

theorem ofNat_eq_of_toNat_eq {n : Nat} {x : UInt8} (h : n = x.toNat) : UInt8.ofNat n = x := by
  rw [h, UInt8.ofNat_toNat]

/-- Regrouping bytes into groups of six bits and back loses nothing, whatever the padding. -/
theorem octets?_sextets (bytes : List UInt8) : octets? (sextets bytes) = some bytes := by
  fun_induction sextets bytes with
  | case1 => rfl
  | case2 x =>
    have hx := x.toNat_lt
    rw [octets?, if_pos (by omega), ofNat_eq_of_toNat_eq (x := x) (by omega)]
  | case3 x y =>
    have hx := x.toNat_lt
    have hy := y.toNat_lt
    rw [octets?, if_pos (by omega), ofNat_eq_of_toNat_eq (x := x) (by omega),
      ofNat_eq_of_toNat_eq (x := y) (by omega)]
  | case4 x y z rest ih =>
    have hx := x.toNat_lt
    have hy := y.toNat_lt
    have hz := z.toNat_lt
    rw [octets?, ih, Option.map_some, ofNat_eq_of_toNat_eq (x := x) (by omega),
      ofNat_eq_of_toNat_eq (x := y) (by omega), ofNat_eq_of_toNat_eq (x := z) (by omega)]

theorem value?_digit {n : Nat} (h : n < 64) : value? urlSafe (digit urlSafe n) = some n := by
  have hall : ∀ k : Fin 64, value? urlSafe (digit urlSafe k) = some k.val := by decide
  exact hall ⟨n, h⟩

theorem mapM_value?_map_digit {numbers : List Nat} (h : ∀ n ∈ numbers, n < 64) :
    (numbers.map (digit urlSafe)).mapM (value? urlSafe) = some numbers := by
  induction numbers with
  | nil => rfl
  | cons n numbers ih =>
    obtain ⟨hn, hnumbers⟩ := List.forall_mem_cons.1 h
    rw [List.map_cons, List.mapM_cons, value?_digit hn, ih hnumbers]
    rfl

/-- Every list of bytes is read back from its text. -/
theorem decode?_encode (bytes : List UInt8) :
    decode? urlSafe (encode urlSafe bytes) = some bytes := by
  rw [decode?, encode, String.toList_ofList, mapM_value?_map_digit fun _ ↦ lt_of_mem_sextets]
  exact octets?_sextets bytes

end RecordQuery.Codec.Base64
