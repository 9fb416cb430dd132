import RecordQuery.Floating.Numeral
import RecordQuery.Proofs.Floating.Decimal
import RecordQuery.Proofs.Floating.Shortest

/-!
# Reading back what has been written

The explicit text of a finite double is either positional, digits around a point, or it has an
exponent. A positional text is read as the double that it was written for.
-/

namespace RecordQuery

-- Powers of numbers are those of the core library.
attribute [local instance (1100)] instPowNat

namespace NumeralStyle

/-- Digits with a point among them that write a decimal numeral. -/
structure Positional (d : Decimal) (whole fraction : List Char) : Prop where
  whole_ne : whole ≠ []
  fraction_ne : fraction ≠ []
  isDigit : ∀ c ∈ whole ++ fraction, c.isDigit = true
  toRat_eq : Decimal.toRat ⟨Decimal.value (whole ++ fraction), -fraction.length⟩ = d.toRat
  length_le : fraction.length ≤ digitCount (Decimal.value (whole ++ fraction)) + 3

/-- Behind a digit, digits and the characters of an exponent. -/
structure Scientific (c : Char) (cs : List Char) : Prop where
  isDigit : c.isDigit = true
  mem : 'e' ∈ cs
  forall_mem : ∀ d ∈ cs, d.isDigit = true ∨ d = '.' ∨ d = 'e' ∨ d = '-'

variable {d : Decimal}

theorem isDigit_of_mem_replicate_zero {n : Nat} {c : Char} (hc : c ∈ List.replicate n '0') :
    c.isDigit = true := by
  obtain ⟨-, rfl⟩ := List.mem_replicate.1 hc
  decide

theorem isDigit_of_mem_zeros_append {n k : Nat} {c : Char}
    (hc : c ∈ List.replicate n '0' ++ Nat.toDigits 10 k) : c.isDigit = true := by
  rcases List.mem_append.1 hc with hc | hc
  · exact isDigit_of_mem_replicate_zero hc
  · exact Decimal.isDigit_of_mem_toDigits hc

/-- The places up to the point are filled with zeros, and one more follows it. -/
theorem positional_zeros (n e : Nat) :
    Positional ⟨n, e⟩ (Nat.toDigits 10 n ++ List.replicate e '0') ['0'] := by
  have hdigits : Nat.toDigits 10 n ++ List.replicate e '0' ++ ['0'] =
      Nat.toDigits 10 n ++ List.replicate (e + 1) '0' := by
    rw [List.append_assoc, ← List.replicate_succ']
  have hvalue : Decimal.value (Nat.toDigits 10 n ++ List.replicate e '0' ++ ['0']) =
      n * 10 ^ (e + 1) := by
    rw [hdigits, Decimal.value_append, Decimal.value_toDigits, Decimal.value_replicate_zero,
      List.length_replicate, Nat.add_zero, Nat.mul_comm]
  refine ⟨by simp [Nat.toDigits_ne_nil], List.cons_ne_nil _ _, ?_, ?_, by simp⟩
  · intro c hc
    rw [hdigits] at hc
    rcases List.mem_append.1 hc with hc | hc
    · exact Decimal.isDigit_of_mem_toDigits hc
    · exact isDigit_of_mem_replicate_zero hc
  · rw [hvalue]
    unfold Decimal.toRat
    calc
      ((n * 10 ^ (e + 1) : Nat) : ℚ) * 10 ^ (-(['0'].length : Int)) =
          n * (10 ^ e * 10) * 10 ^ (-1 : Int) := by
        rw [Nat.pow_succ]
        push_cast
        rfl
      _ = n * 10 ^ e := by
        rw [zpow_neg, zpow_one]
        ring
      _ = n * 10 ^ (e : Int) := by rw [zpow_natCast]

/-- The point stands among the digits. -/
theorem positional_point {n e : Nat} (he : e + 1 < (Nat.toDigits 10 n).length) :
    Positional ⟨n, Int.negSucc e⟩
      ((Nat.toDigits 10 n).take ((Nat.toDigits 10 n).length - (e + 1)))
      ((Nat.toDigits 10 n).drop ((Nat.toDigits 10 n).length - (e + 1))) := by
  have hlength : ((Nat.toDigits 10 n).drop ((Nat.toDigits 10 n).length - (e + 1))).length =
      e + 1 := by
    rw [List.length_drop]
    omega
  refine ⟨?_, ?_, ?_, ?_, ?_⟩
  · rw [← List.length_pos_iff, List.length_take]
    omega
  · rw [← List.length_pos_iff, hlength]
    exact Nat.succ_pos e
  · rw [List.take_append_drop]
    exact fun c ↦ Decimal.isDigit_of_mem_toDigits
  · rw [List.take_append_drop, Decimal.value_toDigits, hlength]
    rfl
  · rw [List.take_append_drop, Decimal.value_toDigits, hlength]
    unfold digitCount
    omega

/-- Zeros fill the places between the point and the digits; there are at most three. -/
theorem positional_fraction {n e : Nat} (he : (Nat.toDigits 10 n).length ≤ e + 1)
    (hleast : e + 1 ≤ (Nat.toDigits 10 n).length + 3) :
    Positional ⟨n, Int.negSucc e⟩ ['0']
      (List.replicate (e + 1 - (Nat.toDigits 10 n).length) '0' ++ Nat.toDigits 10 n) := by
  have hzeros : ['0'] ++ (List.replicate (e + 1 - (Nat.toDigits 10 n).length) '0' ++
      Nat.toDigits 10 n) =
      List.replicate (e + 1 - (Nat.toDigits 10 n).length + 1) '0' ++ Nat.toDigits 10 n := rfl
  have hvalue : Decimal.value (['0'] ++
      (List.replicate (e + 1 - (Nat.toDigits 10 n).length) '0' ++ Nat.toDigits 10 n)) = n := by
    rw [hzeros, Decimal.value_append, Decimal.value_toDigits, Decimal.value_replicate_zero,
      Nat.mul_zero, Nat.zero_add]
  have hlength : (List.replicate (e + 1 - (Nat.toDigits 10 n).length) '0' ++
      Nat.toDigits 10 n).length = e + 1 := by
    rw [List.length_append, List.length_replicate]
    omega
  refine ⟨List.cons_ne_nil _ _, by simp [Nat.toDigits_ne_nil], ?_, ?_, ?_⟩
  · rw [hzeros]
    exact fun c ↦ isDigit_of_mem_zeros_append
  · rw [hvalue, hlength]
    rfl
  · rw [hvalue, hlength]
    exact hleast

theorem exists_positional
    (h : explicit.isPositional ((Nat.toDigits 10 d.digits).length - 1 + d.exponent) = true) :
    ∃ whole fraction, explicit.write d = String.ofList (whole ++ '.' :: fraction) ∧
      Positional d whole fraction := by
  obtain ⟨n, e⟩ := d
  have hleast : -4 ≤ ((Nat.toDigits 10 n).length : Int) - 1 + e := by
    have := (Bool.and_eq_true_iff.1 h).1
    simpa using this
  unfold write
  dsimp only at h ⊢
  rw [if_pos h]
  cases e with
  | ofNat e => exact ⟨_, _, by simp [explicit], positional_zeros n e⟩
  | negSucc e =>
    dsimp only
    split
    · rename_i hplaces
      exact ⟨_, _, by simp, positional_point hplaces⟩
    · rename_i hplaces
      exact ⟨_, _, by simp, positional_fraction (by omega) (by omega)⟩

theorem isDigit_or_of_mem_toString {n : Int} {c : Char} (hc : c ∈ (toString n).toList) :
    c.isDigit = true ∨ c = '-' := by
  rw [Decimal.toList_toString] at hc
  split at hc
  · rcases List.mem_cons.1 hc with rfl | hc
    · exact .inr rfl
    · exact .inl (Decimal.isDigit_of_mem_toDigits hc)
  · exact .inl (Decimal.isDigit_of_mem_toDigits hc)

/-- An exponent behind a digit and further places. -/
theorem scientific_append {c : Char} {cs : List Char} (hc : c.isDigit = true)
    (hcs : ∀ d ∈ cs, d.isDigit = true ∨ d = '.') (n : Int) :
    Scientific c (cs ++ 'e' :: (toString n).toList) := by
  refine ⟨hc, List.mem_append_right _ List.mem_cons_self, ?_⟩
  intro d hd
  rcases List.mem_append.1 hd with hd | hd
  · exact (hcs d hd).imp_right .inl
  · rcases List.mem_cons.1 hd with rfl | hd
    · exact .inr (.inr (.inl rfl))
    · exact (isDigit_or_of_mem_toString hd).imp_right fun hd ↦ .inr (.inr hd)

theorem exists_scientific
    (h : explicit.isPositional ((Nat.toDigits 10 d.digits).length - 1 + d.exponent) = false) :
    ∃ c cs, explicit.write d = String.ofList (c :: cs) ∧ Scientific c cs := by
  obtain ⟨first, rest, hcons, hfirst, hrest⟩ := Decimal.exists_toDigits d.digits
  unfold write
  dsimp only
  rw [if_neg (by simp [h]), hcons]
  generalize ((first :: rest).length : Int) - 1 + d.exponent = top
  cases rest with
  | nil =>
    refine ⟨first, [] ++ 'e' :: (toString top).toList, ?_, scientific_append hfirst (by simp) top⟩
    rw [← String.toList_inj]
    simp
  | cons second rest =>
    refine ⟨first, '.' :: second :: rest ++ 'e' :: (toString top).toList, ?_,
      scientific_append hfirst ?_ top⟩
    · rw [← String.toList_inj]
      simp
    · intro c hc
      rcases List.mem_cons.1 hc with rfl | hc
      · exact .inr rfl
      · exact .inl (hrest c hc)

end NumeralStyle

namespace Floating

/-- Whether the explicit text of a number is written out, without an exponent. -/
def IsPositional {l : Layout} (x : Floating l) : Prop :=
  'e' ∉ (x.text .explicit).toList ∧ x.text .explicit ≠ "inf" ∧ x.text .explicit ≠ "-inf"

instance {l : Layout} (x : Floating l) : Decidable x.IsPositional :=
  inferInstanceAs (Decidable (_ ∧ _ ∧ _))

def signChars (negative : Bool) : List Char :=
  if negative then ['-'] else []

variable {x : Double}

theorem significand_ne_zero (hx : x.magnitude ≠ 0) : x.significand ≠ 0 := by
  have hpos := Nat.two_pow_pos Layout.binary64.fractionBits
  unfold significand
  split
  · exact hx
  · omega

/-- A numeral with the value of the shortest one is read as the number, unless it is so long that
it is taken for zero. -/
theorem ofDecimal_eq (hfinite : x.magnitude < Layout.binary64.infinity) (hx : x.magnitude ≠ 0)
    {d : Decimal} (hd : d.toRat = x.shortest.toRat) (hexponent : d.exponent ≤ 0)
    (hlength : 0 ≤ digitCount d.digits + d.exponent + 3) :
    ofDecimal .binary64 x.negative d = x := by
  have hsignificand := significand_ne_zero hx
  have hinterval := InInterval.of_contains (by decide) hsignificand
    (contains_shortest hsignificand)
  have hdigits : d.digits ≠ 0 := by
    intro hzero
    have hshortest : x.shortest.toRat ≠ 0 :=
      mul_ne_zero (Nat.cast_ne_zero.2 (digits_shortest_ne_zero hsignificand))
        (zpow_ne_zero _ (by norm_num))
    apply hshortest
    rw [← hd, Decimal.toRat, hzero, Nat.cast_zero, zero_mul]
  have hlimit : ((2 ^ Layout.binary64.exponentBits : Nat) : Int) = 2048 := by decide
  have hvalue : ((d.digits * 10 ^ d.exponent.toNat : Nat) : ℚ) / (10 ^ (-d.exponent).toNat : Nat) =
      d.toRat := by
    have hten := zpow_eq_div 10 d.exponent
    rw [Nat.cast_ofNat] at hten
    rw [Decimal.toRat, hten, mul_div_assoc']
    push_cast
    rfl
  unfold digitCount at hlength
  unfold ofDecimal
  dsimp only
  rw [hlimit, if_neg hdigits, if_neg (by omega), if_neg (by omega)]
  apply InInterval.nearest_eq (Nat.mul_ne_zero hdigits (Nat.pow_pos (by decide)).ne')
    (Nat.pow_pos (by decide)).ne' hfinite
  rwa [hvalue, hd]

/-- Digits around a point that are read as a number. -/
structure WrittenOut (x : Double) (whole fraction : List Char) : Prop where
  text_eq : (x.text .explicit).toList = signChars x.negative ++ (whole ++ '.' :: fraction)
  whole_ne : whole ≠ []
  fraction_ne : fraction ≠ []
  isDigit : ∀ c ∈ whole ++ fraction, c.isDigit = true
  read : (Decimal.read? (whole ++ '.' :: fraction)).map (ofDecimal .binary64 x.negative) = some x

theorem readSign_signChars (negative : Bool) {c : Char} {cs : List Char} (hc : c.isDigit = true) :
    Decimal.readSign (signChars negative ++ c :: cs) = (negative, c :: cs) := by
  cases negative with
  | true => rfl
  | false => exact Decimal.readSign_of_isDigit hc

theorem toList_sign (negative : Bool) (s : String) :
    ((if negative then "-" else "") ++ s).toList = signChars negative ++ s.toList := by
  cases negative <;> simp [signChars]

theorem toList_text (hx : x.isNaN = false) : (x.text .explicit).toList = signChars x.negative ++
    (if x.isInfinite then "inf" else if x.isZero then "0.0"
      else NumeralStyle.explicit.write x.shortest).toList := by
  unfold text
  dsimp only
  rw [hx, if_neg Bool.false_ne_true]
  split
  · exact toList_sign _ _
  · split <;> exact toList_sign _ _

theorem writtenOut_zero (negative : Bool) : WrittenOut (zero .binary64 negative) ['0'] ['0'] := by
  refine ⟨?_, List.cons_ne_nil _ _, List.cons_ne_nil _ _, by simp, rfl⟩
  cases negative <;> rfl

theorem WrittenOut.of_positional (hfinite : x.magnitude < Layout.binary64.infinity)
    (hx : x.magnitude ≠ 0) {whole fraction : List Char}
    (htext : (x.text .explicit).toList = signChars x.negative ++ (whole ++ '.' :: fraction))
    (h : NumeralStyle.Positional x.shortest whole fraction) : WrittenOut x whole fraction := by
  refine ⟨htext, h.whole_ne, h.fraction_ne, h.isDigit, ?_⟩
  have hlength := h.length_le
  rw [Decimal.read?_point h.isDigit h.whole_ne, Option.map_some]
  apply congrArg some
  apply ofDecimal_eq hfinite hx h.toRat_eq
  · exact Int.neg_nonpos_of_nonneg (Int.natCast_nonneg _)
  · dsimp only
    omega

/-- A double is written out, or with an exponent, or it is infinite. -/
theorem exists_text (hx : x.isNaN = false) :
    (∃ whole fraction, WrittenOut x whole fraction) ∨
      (∃ c cs, (x.text .explicit).toList = signChars x.negative ++ c :: cs ∧
        NumeralStyle.Scientific c cs) ∨
      (x.text .explicit).toList = signChars x.negative ++ ['i', 'n', 'f'] := by
  have htext := toList_text hx
  have hle : x.magnitude ≤ Layout.binary64.infinity := by simpa [isNaN] using hx
  by_cases hinfinite : x.magnitude = Layout.binary64.infinity
  · rw [isInfinite, beq_iff_eq.2 hinfinite, if_pos rfl] at htext
    exact .inr (.inr htext)
  · rw [isInfinite, beq_eq_false_iff_ne.2 hinfinite, if_neg Bool.false_ne_true] at htext
    by_cases hzero : x.magnitude = 0
    · have hx : zero .binary64 x.negative = x := by
        obtain ⟨negative, magnitude, hmagnitude⟩ := x
        obtain rfl : magnitude = 0 := hzero
        rfl
      have hwritten := writtenOut_zero x.negative
      rw [hx] at hwritten
      exact .inl ⟨_, _, hwritten⟩
    · rw [isZero, beq_eq_false_iff_ne.2 hzero, if_neg Bool.false_ne_true] at htext
      cases hstyle : NumeralStyle.explicit.isPositional
          ((Nat.toDigits 10 x.shortest.digits).length - 1 + x.shortest.exponent) with
      | true =>
        obtain ⟨whole, fraction, hwrite, hpositional⟩ := NumeralStyle.exists_positional hstyle
        rw [hwrite, String.toList_ofList] at htext
        exact .inl ⟨_, _, .of_positional (Nat.lt_of_le_of_ne hle hinfinite) hzero htext hpositional⟩
      | false =>
        obtain ⟨c, cs, hwrite, hscientific⟩ := NumeralStyle.exists_scientific hstyle
        rw [hwrite, String.toList_ofList] at htext
        exact .inr (.inl ⟨c, cs, htext, hscientific⟩)

theorem WrittenOut.readSign {whole fraction : List Char} (h : WrittenOut x whole fraction) :
    Decimal.readSign (x.text .explicit).toList = (x.negative, whole ++ '.' :: fraction) := by
  rw [h.text_eq]
  cases whole with
  | nil => exact absurd rfl h.whole_ne
  | cons c whole => exact readSign_signChars x.negative (h.isDigit c List.mem_cons_self)

/-- A positional text is read as the number that it was written for. -/
theorem WrittenOut.ofText?_eq {whole fraction : List Char} (h : WrittenOut x whole fraction) :
    ofText? .binary64 (x.text .explicit) = some x := by
  have hsign := h.readSign
  have hread := h.read
  cases whole with
  | nil => exact absurd rfl h.whole_ne
  | cons c whole => rwa [ofText?_of_isDigit hsign (h.isDigit c List.mem_cons_self)]

theorem WrittenOut.isPositional {whole fraction : List Char} (h : WrittenOut x whole fraction) :
    x.IsPositional := by
  have hpoint : '.' ∈ (x.text .explicit).toList := by simp [h.text_eq]
  refine ⟨?_, ?_, ?_⟩
  · rw [h.text_eq]
    intro he
    have hsign : 'e' ∉ signChars x.negative := by cases x.negative <;> decide
    have he := (List.mem_append.1 he).resolve_left hsign
    have hdigit : Char.isDigit 'e' = true := by
      rcases List.mem_append.1 he with he | he
      · exact h.isDigit _ (List.mem_append_left _ he)
      · have he := (List.mem_cons.1 he).resolve_left (by decide)
        exact h.isDigit _ (List.mem_append_right _ he)
    exact absurd hdigit (by decide)
  · intro htext
    rw [htext] at hpoint
    exact absurd hpoint (by decide)
  · intro htext
    rw [htext] at hpoint
    exact absurd hpoint (by decide)

theorem IsPositional.exists_writtenOut (hx : x.isNaN = false) (h : x.IsPositional) :
    ∃ whole fraction, WrittenOut x whole fraction := by
  obtain ⟨he, hinf, hinf'⟩ := h
  rcases exists_text hx with hwritten | ⟨c, cs, htext, hscientific⟩ | htext
  · exact hwritten
  · refine absurd ?_ he
    rw [htext]
    exact List.mem_append_right _ (List.mem_cons_of_mem _ hscientific.mem)
  · cases hnegative : x.negative with
    | true =>
      rw [hnegative] at htext
      exact absurd (String.toList_inj.1 htext) hinf'
    | false =>
      rw [hnegative] at htext
      exact absurd (String.toList_inj.1 htext) hinf

end Floating

end RecordQuery
