import RecordQuery.Text.Utf8

/-!
# The bytes of a text

The bytes of a text are those of its characters one after the other. They determine the text, and a
zero byte stands for the character zero only.
-/

namespace RecordQuery.Text

theorem toList_loop (bytes : ByteArray) (i : Nat) (before : List UInt8) :
    ByteArray.toList.loop bytes i before = before.reverse ++ bytes.data.toList.drop i := by
  fun_induction ByteArray.toList.loop bytes i before with
  | case1 i before hi ih =>
    have hsize : i < bytes.data.toList.length := by simpa using hi
    have hget : bytes.get! i = bytes.data.toList[i] := by
      change bytes.data[i]! = _
      rw [getElem!_pos bytes.data i hi, Array.getElem_toList]
    rw [ih, List.reverse_cons, List.append_assoc, List.singleton_append, hget,
      List.getElem_cons_drop]
  | case2 i before hi =>
    rw [List.drop_eq_nil_of_le (by simpa using hi), List.append_nil]

theorem toList_eq_toList_data (bytes : ByteArray) : bytes.toList = bytes.data.toList :=
  toList_loop bytes 0 []

theorem utf8_eq_flatMap (s : String) : utf8 s = s.toList.flatMap String.utf8EncodeChar := by
  rw [utf8, toList_eq_toList_data, String.toUTF8, ← String.utf8Encode_toList, List.utf8Encode,
    List.data_toByteArray]

theorem utf8_injective : Function.Injective utf8 := by
  intro s s' h
  rw [utf8, utf8, toList_eq_toList_data, toList_eq_toList_data, Array.toList_inj] at h
  exact String.toByteArray_inj.1 (ByteArray.ext h)

/-- Only the character zero has a zero byte in its encoding. -/
theorem eq_zero_of_zero_mem {c : Char} (h : 0 ∈ String.utf8EncodeChar c) : c = '\x00' := by
  have hmod {n : Nat} (h : (0 : UInt8) = .ofNat n) : n % 256 = 0 := by
    have hnat := congrArg UInt8.toNat h
    rwa [UInt8.toNat_ofNat', eq_comm] at hnat
  rw [String.utf8EncodeChar.eq_def] at h
  dsimp only at h
  split at h
  · have hzero := hmod (List.mem_singleton.1 h)
    apply Char.toNat_inj.1
    change c.val.toNat = 0
    omega
  · -- the bytes of longer characters have their high bits set
    exfalso
    split at h
    · simp only [List.mem_cons, List.not_mem_nil, or_false] at h
      rcases h with h | h
      all_goals
        have := hmod h
        omega
    · split at h
      all_goals simp only [List.mem_cons, List.not_mem_nil, or_false] at h
      · rcases h with h | h | h
        all_goals
          have := hmod h
          omega
      · rcases h with h | h | h | h
        all_goals
          have := hmod h
          omega

theorem zero_mem_utf8 {s : String} (h : 0 ∈ utf8 s) : '\x00' ∈ s.toList := by
  rw [utf8_eq_flatMap, List.mem_flatMap] at h
  obtain ⟨c, hc, hzero⟩ := h
  exact eq_zero_of_zero_mem hzero ▸ hc

end RecordQuery.Text
