import Mathlib.Data.List.Induction
import Mathlib.Data.List.TakeWhile
import RecordQuery.Floating.Decimal

/-!
# Reading decimal digits

The digits of a natural number are read as that number, also around a point and behind a sign. A run
of digits may begin with zeros that the digits of its value lack.
-/

namespace RecordQuery.Decimal

-- Powers of numbers are those of the core library.
attribute [local instance (1100)] instPowNat

variable {c : Char} {cs ds whole fraction : List Char}

/-- Digits in front of others are worth more by a power of ten for each digit after them. -/
theorem value_append (cs ds : List Char) :
    value (cs ++ ds) = 10 ^ ds.length * value cs + value ds := by
  change Nat.ofDigitChars 10 (cs ++ ds) 0 = _
  rw [Nat.ofDigitChars_append, Nat.ofDigitChars_eq_ofDigitChars_zero]
  rfl

/-- The decimal digits of a number are worth the number. -/
@[simp]
theorem value_toDigits (n : Nat) : value (Nat.toDigits 10 n) = n :=
  Nat.ofDigitChars_ten_toDigits

@[simp]
theorem value_replicate_zero (n : Nat) : value (List.replicate n '0') = 0 := by
  change Nat.ofDigitChars 10 _ 0 = 0
  rw [Nat.ofDigitChars_replicate_zero, Nat.mul_zero]

theorem isDigit_of_mem_toDigits {n : Nat} (hc : c ∈ Nat.toDigits 10 n) : c.isDigit = true :=
  Nat.isDigit_of_mem_toDigits (by decide) (by decide) hc

theorem exists_toDigits (n : Nat) :
    ∃ c cs, Nat.toDigits 10 n = c :: cs ∧ c.isDigit = true ∧ ∀ d ∈ cs, d.isDigit = true := by
  cases h : Nat.toDigits 10 n with
  | nil => exact absurd h Nat.toDigits_ne_nil
  | cons c cs =>
    have hdigits : ∀ d ∈ c :: cs, d.isDigit = true :=
      fun d hd ↦ isDigit_of_mem_toDigits (n := n) (h ▸ hd)
    exact ⟨c, cs, rfl, List.forall_mem_cons.1 hdigits⟩

theorem digitChar_of_isDigit (hc : c.isDigit = true) :
    Nat.digitChar (c.toNat - 48) = c ∧ c.toNat - 48 < 10 := by
  have hrange : 48 ≤ c.toNat ∧ c.toNat ≤ 57 := by
    simpa [Char.isDigit, UInt32.le_iff_toNat_le] using hc
  have hdigits : ∀ n < 10, Nat.digitChar n = Char.ofNat (48 + n) := by decide
  have hlt : c.toNat - 48 < 10 := by omega
  refine ⟨?_, hlt⟩
  rw [hdigits _ hlt, Nat.add_sub_cancel' hrange.1, Char.ofNat_toNat]

/-- A run of digits ends in the digits of its value. -/
theorem toDigits_value_suffix (hne : ds ≠ []) (h : ∀ d ∈ ds, d.isDigit = true) :
    Nat.toDigits 10 (value ds) <:+ ds := by
  induction ds using List.reverseRecOn with
  | nil => exact absurd rfl hne
  | append_singleton ds d ih =>
    obtain ⟨hds, hd⟩ := List.forall_mem_append.1 h
    obtain ⟨hchar, hlt⟩ := digitChar_of_isDigit (hd d List.mem_cons_self)
    have hvalue : value (ds ++ [d]) = 10 * value ds + (d.toNat - 48) := by
      rw [value_append]
      simp [value]
    have hlast : Nat.toDigits 10 (d.toNat - 48) = [d] := by
      rw [Nat.toDigits_of_lt_base hlt, hchar]
    rw [hvalue]
    rcases Nat.eq_zero_or_pos (value ds) with hzero | hpos
    · rw [hzero, Nat.mul_zero, Nat.zero_add, hlast]
      exact List.suffix_append ds [d]
    · have hds_ne : ds ≠ [] := by
        rintro rfl
        exact absurd hpos (Nat.lt_irrefl 0)
      obtain ⟨zeros, hzeros⟩ := ih hds_ne hds
      refine ⟨zeros, ?_⟩
      rw [← Nat.toDigits_append_toDigits (by decide) hpos hlt, hlast, ← List.append_assoc, hzeros]

/-- The text of an integer: its digits behind the sign of a negative one. -/
theorem toList_toString (n : Int) :
    (toString n).toList = if n < 0 then '-' :: Nat.toDigits 10 n.natAbs
      else Nat.toDigits 10 n.natAbs := by
  cases n with
  | ofNat n =>
    rw [if_neg (by simp)]
    exact Nat.toList_repr
  | negSucc n =>
    rw [if_pos (Int.negSucc_lt_zero n)]
    change ("-" ++ Nat.repr (n + 1)).toList = _
    rw [String.toList_append, Nat.toList_repr]
    rfl

theorem readSign_of_isDigit (hc : c.isDigit = true) : readSign (c :: cs) = (false, c :: cs) := by
  unfold readSign
  split
  · rename_i heq
    obtain ⟨rfl, -⟩ := List.cons.inj heq
    simp at hc
  · rename_i heq
    obtain ⟨rfl, -⟩ := List.cons.inj heq
    simp at hc
  · rfl

/-- Digits alone are read as the integer they write. -/
theorem read?_digits (hdigits : ∀ d ∈ ds, d.isDigit = true) (hne : ds ≠ []) :
    read? ds = some ⟨value ds, 0⟩ := by
  have htake : ds.takeWhile Char.isDigit = ds := List.takeWhile_eq_self_iff.2 hdigits
  have hdrop : ds.dropWhile Char.isDigit = [] := List.dropWhile_eq_nil_iff.2 hdigits
  simp [read?, htake, hdrop, hne, readExponent?]

/-- Digits after a point scale the number down by a power of ten each. -/
theorem read?_point (hdigits : ∀ d ∈ whole ++ fraction, d.isDigit = true) (hne : whole ≠ []) :
    read? (whole ++ '.' :: fraction) = some ⟨value (whole ++ fraction), -fraction.length⟩ := by
  obtain ⟨hwhole, hfraction⟩ := List.forall_mem_append.1 hdigits
  have hpoint : ¬ Char.isDigit '.' = true := by decide
  have htake : fraction.takeWhile Char.isDigit = fraction := List.takeWhile_eq_self_iff.2 hfraction
  have hdrop : fraction.dropWhile Char.isDigit = [] := List.dropWhile_eq_nil_iff.2 hfraction
  unfold read?
  rw [List.takeWhile_append_of_pos hwhole, List.dropWhile_append_of_pos hwhole,
    List.takeWhile_cons_of_neg hpoint, List.dropWhile_cons_of_neg hpoint, List.append_nil]
  simp [htake, hdrop, hne, readExponent?]

end RecordQuery.Decimal

namespace RecordQuery.Floating

variable {l : Layout} {negative : Bool} {c : Char} {cs : List Char}

/-- A text that begins with a digit is none of the words for special values. -/
theorem ofText?_of_isDigit {s : String} (hs : Decimal.readSign s.toList = (negative, c :: cs))
    (hc : c.isDigit = true) :
    ofText? l s = (Decimal.read? (c :: cs)).map (ofDecimal l negative) := by
  have hrange : 48 ≤ c.toNat ∧ c.toNat ≤ 57 := by
    simpa [Char.isDigit, UInt32.le_iff_toNat_le] using hc
  have hlower : c.toLower = c := by
    unfold Char.toLower
    rw [dif_neg]
    rintro ⟨hupper, -⟩
    have hupper : 65 ≤ c.toNat := UInt32.le_iff_toNat_le.1 hupper
    omega
  have hword {word : String} {d : Char} {ds : List Char} (hword : word.toList = d :: ds)
      (hd : 57 < d.toNat) : (String.ofList ((c :: cs).map Char.toLower) == word) = false := by
    rw [beq_eq_false_iff_ne]
    rintro rfl
    rw [String.toList_ofList, List.map_cons, hlower] at hword
    obtain ⟨rfl, -⟩ := List.cons.inj hword
    omega
  unfold ofText?
  rw [hs]
  dsimp only
  have hinf : "inf".toList = 'i' :: ['n', 'f'] := rfl
  have hinfinity : "infinity".toList = 'i' :: ['n', 'f', 'i', 'n', 'i', 't', 'y'] := rfl
  have hnan : "nan".toList = 'n' :: ['a', 'n'] := rfl
  rw [hword hinf (by decide), hword hinfinity (by decide), hword hnan (by decide)]
  rfl

end RecordQuery.Floating
