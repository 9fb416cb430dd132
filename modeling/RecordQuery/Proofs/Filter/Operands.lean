import RecordQuery.Proofs.Filter.Grammar
import RecordQuery.Proofs.Filter.Lexer
import RecordQuery.Proofs.Floating.Monotone
import RecordQuery.Proofs.Floating.Text
import RecordQuery.Proofs.Text.Split

/-!
# Comparables read again

A comparable is written as one token. That token is read as the same comparable, unless it is a
float in exponent form or an infinity: these are no numerals, and are read as members. A numeral
without a point is read as its integer, or as the nearest double of one that is longer than 64 bits.
-/

namespace RecordQuery

-- Powers of numbers are those of the core library.
attribute [local instance (1100)] instPowNat

namespace Floating

variable {l : Layout}

/-- Reading a decimal never gives NaN: past the largest double it gives infinity. -/
theorem isNaN_ofDecimal (negative : Bool) (d : Decimal) :
    (ofDecimal l negative d).isNaN = false := by
  have hzero : (zero l negative).isNaN = false := by simp [isNaN, zero]
  have hinfinite : (infinite l negative).isNaN = false := by simp [isNaN, infinite]
  unfold ofDecimal
  dsimp only
  split
  · exact hzero
  · split
    · exact hinfinite
    · split
      · exact hzero
      · exact isNaN_nearest _ _ _

/-- A numeral without a point is read as the nearest double of its integer. -/
theorem ofDecimal_integer {magnitude : Nat} (negative : Bool) (h : magnitude ≠ 0) :
    ofDecimal .binary64 negative ⟨magnitude, 0⟩ =
      .ofInt .binary64 (if negative then -magnitude else magnitude) := by
  have hnegative : decide ((if negative then -magnitude else magnitude : Int) < 0) = negative := by
    cases negative <;> simp [Nat.pos_of_ne_zero h]
  have hmagnitude : (if negative then -magnitude else magnitude : Int).natAbs = magnitude := by
    cases negative <;> simp
  have hlimit : (0 : Int) ≤ (2 ^ Layout.binary64.exponentBits : Nat) := Int.natCast_nonneg _
  rw [ofInt_eq_nearest, hnegative, hmagnitude, ofDecimal]
  dsimp only
  rw [if_neg h, if_neg (by omega), if_neg (by omega)]
  simp

end Floating

namespace Filter

section Numerals

variable {cs : List Char} {c : Char}

theorem IsUnsigned.forall_mem (h : IsUnsigned cs) : ∀ c ∈ cs, c.isDigit = true ∨ c = '.' := by
  obtain ⟨whole, fraction, rfl, hwhole, hfraction⟩ := h
  intro c hc
  rcases List.mem_append.1 hc with hc | hc
  · exact .inl ((isDigits_iff.1 hwhole).2 c hc)
  · rcases hfraction with rfl | ⟨ds, rfl, hds⟩
    · simp at hc
    · rcases List.mem_cons.1 hc with rfl | hc
      · exact .inr rfl
      · exact .inl ((isDigits_iff.1 hds).2 c hc)

/-- A numeral is an optional minus sign in front of an unsigned numeral. -/
theorem exists_readSign (h : isNumeral cs = true) :
    ∃ negative c ds, Decimal.readSign cs = (negative, c :: ds) ∧ c.isDigit = true ∧
      IsUnsigned (c :: ds) := by
  rcases isNumeral_iff.1 h with hcs | ⟨ds, rfl, hds⟩
  · obtain ⟨c, rest, rfl, hc⟩ := hcs.exists_head
    exact ⟨false, c, rest, Decimal.readSign_of_isDigit hc, hc, hcs⟩
  · obtain ⟨c, rest, rfl, hc⟩ := hds.exists_head
    exact ⟨true, c, rest, rfl, hc, hds⟩

theorem ofNumeral?_eq {n : String} {negative : Bool} {digits : List Char}
    (hsign : Decimal.readSign n.toList = (negative, digits)) :
    Literal.ofNumeral? n =
      let magnitude : Int := Decimal.value digits
      let signed := if negative then -magnitude else magnitude
      if isDigits digits && IntegerType.int64.contains signed then some (.integer (.ofInt signed))
      else (Floating.ofText? .binary64 n).map .float := by
  unfold Literal.ofNumeral?
  rw [hsign]

/-- A literal that a numeral is read as is never NaN. -/
theorem isNaN_of_ofNumeral? {n : String} {x : Double} (hn : isNumeral n.toList = true)
    (h : Literal.ofNumeral? n = some (.float x)) : x.isNaN = false := by
  obtain ⟨negative, c, ds, hsign, hc, -⟩ := exists_readSign hn
  rw [ofNumeral?_eq hsign, Floating.ofText?_of_isDigit hsign hc] at h
  dsimp only at h
  generalize (if negative then -(Decimal.value (c :: ds) : Int) else Decimal.value (c :: ds)) =
    signed at h
  split at h
  · simp at h
  · cases hread : Decimal.read? (c :: ds) with
    | none => simp [hread] at h
    | some d =>
      rw [hread] at h
      obtain rfl := Literal.float.inj (Option.some.inj h)
      exact Floating.isNaN_ofDecimal negative d

theorem isWord_of_head (hword : ∀ d ∈ c :: cs, inWord d = true) (hminus : c ≠ '-')
    (hkeyword : c ≠ 'A' ∧ c ≠ 'O' ∧ c ≠ 'N') (hnumeral : isNumeral (c :: cs) = false) :
    IsWord (c :: cs) := by
  refine ⟨List.cons_ne_nil _ _, hword, by simpa using hminus, ?_⟩
  unfold classify
  simp [hkeyword, hnumeral]

/-- A numeral in exponent form is read as a word. -/
theorem isWord_of_scientific (h : NumeralStyle.Scientific c cs) : IsWord (c :: cs) := by
  have hne {d : Char} (hd : d.isDigit = false) : c ≠ d := by
    rintro rfl
    simp [h.isDigit] at hd
  refine isWord_of_head ?_ (hne (by decide)) ⟨hne (by decide), hne (by decide), hne (by decide)⟩ ?_
  · refine List.forall_mem_cons.2 ⟨inWord_of_isDigit h.isDigit, ?_⟩
    intro d hd
    rcases h.forall_mem d hd with hd | rfl | rfl | rfl
    · exact inWord_of_isDigit hd
    all_goals decide
  · rw [Bool.eq_false_iff, ne_eq, isNumeral_of_ne (hne (by decide))]
    intro hunsigned
    rcases hunsigned.forall_mem 'e' (List.mem_cons_of_mem _ h.mem) with he | he
    all_goals exact absurd he (by decide)

theorem isNumeral_signChars (negative : Bool) (h : IsUnsigned cs) :
    isNumeral (Floating.signChars negative ++ cs) = true := by
  cases negative with
  | true => exact isNumeral_minus.2 h
  | false => exact isNumeral_iff.2 (.inl h)

/-- The text of a float without an exponent is a numeral. -/
theorem isNumeral_of_writtenOut {x : Double} {whole fraction : List Char}
    (h : x.WrittenOut whole fraction) : isNumeral (x.text .explicit).toList = true := by
  obtain ⟨hwhole, hfraction⟩ := List.forall_mem_append.1 h.isDigit
  have hunsigned : IsUnsigned (whole ++ '.' :: fraction) :=
    ⟨whole, '.' :: fraction, rfl, isDigits_iff.2 ⟨h.whole_ne, hwhole⟩,
      .inr ⟨fraction, rfl, isDigits_iff.2 ⟨h.fraction_ne, hfraction⟩⟩⟩
  rw [h.text_eq]
  exact isNumeral_signChars x.negative hunsigned

/-- A float that is written out is read back from its text. -/
theorem ofNumeral?_text {x : Double} {whole fraction : List Char}
    (h : x.WrittenOut whole fraction) :
    Literal.ofNumeral? (x.text .explicit) = some (.float x) := by
  have hdigits : isDigits (whole ++ '.' :: fraction) = false := by
    rw [Bool.eq_false_iff, ne_eq, isDigits_iff]
    rintro ⟨-, hdigits⟩
    exact absurd (hdigits '.' (by simp)) (by decide)
  rw [ofNumeral?_eq h.readSign]
  dsimp only
  rw [hdigits, Bool.false_and, if_neg Bool.false_ne_true, h.ofText?_eq]
  rfl

section Integers

variable {numeral : String} {digits : List Char} {negative : Bool}

/-- The integer that is written with a sign and digits. -/
def writtenInteger (negative : Bool) (digits : List Char) : Int :=
  if negative then -Decimal.value digits else Decimal.value digits

/-- The literal that an integer is read as: the integer itself if it has 64 bits, and otherwise its
nearest double. -/
def Literal.ofInteger (d : Int) : Literal :=
  if IntegerType.int64.contains d then .integer (.ofInt d) else .float (.ofInt .binary64 d)

/-- A numeral without a point is read as the integer it writes, or as the nearest float if integer
literals do not reach it. -/
theorem ofNumeral?_integer (hn : numeral.toList = Floating.signChars negative ++ digits)
    (hdigits : isDigits digits = true) :
    Literal.ofNumeral? numeral = some (.ofInteger (writtenInteger negative digits)) := by
  obtain ⟨hne, hall⟩ := isDigits_iff.1 hdigits
  obtain ⟨c, cs, rfl⟩ := List.exists_cons_of_ne_nil hne
  have hc : c.isDigit = true := hall c List.mem_cons_self
  have hsign : Decimal.readSign numeral.toList = (negative, c :: cs) := by
    rw [hn, Floating.readSign_signChars negative hc]
  rw [ofNumeral?_eq hsign, Floating.ofText?_of_isDigit hsign hc, Decimal.read?_digits hall hne]
  dsimp only
  rw [hdigits, Bool.true_and, ← writtenInteger, Literal.ofInteger]
  split
  · rfl
  · rename_i hrange
    have hne : Decimal.value (c :: cs) ≠ 0 := by
      intro hzero
      apply hrange
      rw [writtenInteger, hzero]
      cases negative <;> decide
    exact congrArg (some ∘ Literal.float) (Floating.ofDecimal_integer negative hne)

theorem toList_toString (n : Int) :
    (toString n).toList = Floating.signChars (decide (n < 0)) ++ Nat.toDigits 10 n.natAbs := by
  rw [Decimal.toList_toString]
  split <;> simp [Floating.signChars, *]

theorem isDigits_toDigits (n : Nat) : isDigits (Nat.toDigits 10 n) = true :=
  isDigits_iff.2 ⟨Nat.toDigits_ne_nil, fun _ ↦ Decimal.isDigit_of_mem_toDigits⟩

theorem isNumeral_toString (n : Int) : isNumeral (toString n).toList = true := by
  rw [toList_toString]
  exact isNumeral_signChars _ (.of_isDigits (isDigits_toDigits _))

theorem writtenInteger_toDigits (n : Int) :
    writtenInteger (decide (n < 0)) (Nat.toDigits 10 n.natAbs) = n := by
  rw [writtenInteger, Decimal.value_toDigits]
  simp only [decide_eq_true_eq]
  split <;> omega

/-- An integer literal is read back from its decimal text. -/
theorem ofNumeral?_toString (n : Int64) :
    Literal.ofNumeral? (toString n.toInt) = some (.integer n) := by
  have hcontains : IntegerType.int64.contains n.toInt = true := by
    have hlow := n.le_toInt
    have hhigh := n.toInt_lt
    have hleast : IntegerType.int64.least = -2 ^ 63 := by decide
    have hgreatest : IntegerType.int64.greatest = 2 ^ 63 - 1 := by decide
    rw [IntegerType.contains_iff, hleast, hgreatest]
    exact ⟨hlow, by omega⟩
  rw [ofNumeral?_integer (toList_toString n.toInt) (isDigits_toDigits _),
    writtenInteger_toDigits, Literal.ofInteger, if_pos hcontains, Int64.ofInt_toInt]

end Integers

end Numerals

/-- The comparables that the parser makes. -/
def Comparable.IsRead : Comparable → Prop
  | member segments => IsWord (".".intercalate segments).toList ∧
      Text.splitOn '.' (".".intercalate segments) = segments
  | literal (.float x) => x.isNaN = false
  | _ => True

/-- What the parser makes of a token that the lexer read: the segments of a member are those of one
word, and no literal is NaN. -/
theorem Token.IsRead.comparable {token : Token} {c : Comparable} (htoken : token.IsRead)
    (h : token.comparable = .ok c) : c.IsRead := by
  cases token with
  | word w =>
    obtain rfl := Except.ok.inj h
    have hjoin : ".".intercalate (Text.splitOn '.' w) = w := Text.intercalate_splitOn '.' w
    refine ⟨?_, by rw [hjoin]⟩
    rw [hjoin]
    exact htoken
  | text s =>
    obtain rfl := Except.ok.inj h
    trivial
  | number n =>
    rw [Token.comparable] at h
    split at h
    · rename_i l hl
      obtain rfl := Except.ok.inj h
      cases l with
      | float x => exact isNaN_of_ofNumeral? htoken hl
      | _ => trivial
    · simp at h
  | _ => simp [Token.comparable] at h

/-- Whether a comparable is no float, or a float that is written out. -/
def Comparable.IsPositional (c : Comparable) : Prop :=
  ∀ x, c = .literal (.float x) → x.IsPositional

/-- A float that is not written out is written as a word, after its sign. -/
theorem exists_isWord_of_float {x : Double} (hx : x.isNaN = false) (h : ¬ x.IsPositional) :
    ∃ cs, (x.text .explicit).toList = Floating.signChars x.negative ++ cs ∧ IsWord cs := by
  rcases Floating.exists_text hx with ⟨whole, fraction, hwritten⟩ | ⟨c, cs, htext, hscientific⟩ |
    htext
  · exact absurd hwritten.isPositional h
  · exact ⟨c :: cs, htext, isWord_of_scientific hscientific⟩
  · have hinf : ['i', 'n', 'f'].all inWord = true := by decide
    exact ⟨_, htext, by decide, List.all_eq_true.1 hinf, by decide, rfl⟩

section Respelling

variable {c : Comparable}

theorem token_float (x : Double) :
    (Comparable.literal (.float x)).token = .number (x.text .explicit) := by
  rw [Comparable.token]
  · exact congrArg Token.number String.ofList_toList
  · intro s hs
    simp at hs

theorem token_integer (n : Int64) :
    (Comparable.literal (.integer n)).token = .number (toString n.toInt) := by
  rw [Comparable.token]
  · exact congrArg Token.number String.ofList_toList
  · intro s hs
    simp at hs

/-- What is written out is read as the same comparable. -/
theorem Comparable.IsRead.reread (hread : c.IsRead) (h : c.IsPositional) :
    c.token.comparable = .ok c ∧ c.token.IsWritten ∧ c.token.respell = [c.token] := by
  cases c with
  | member segments =>
    obtain ⟨hword, hsplit⟩ := hread
    refine ⟨?_, hword, rfl⟩
    rw [Comparable.token, Token.comparable, hsplit]
  | literal l =>
    cases l with
    | text s => exact ⟨rfl, trivial, rfl⟩
    | integer n =>
      have hnumeral := isNumeral_toString n.toInt
      rw [token_integer]
      refine ⟨?_, .inl hnumeral, respell_of_isNumeral hnumeral⟩
      rw [Token.comparable, ofNumeral?_toString]
    | float x =>
      obtain ⟨whole, fraction, hwritten⟩ := (h x rfl).exists_writtenOut hread
      have hnumeral := isNumeral_of_writtenOut hwritten
      rw [token_float]
      refine ⟨?_, .inl hnumeral, respell_of_isNumeral hnumeral⟩
      rw [Token.comparable, ofNumeral?_text hwritten]

/-- A float that is not written out is read as a member. -/
theorem exists_member_of_float {x : Double} (hx : x.isNaN = false) (h : ¬ x.IsPositional) :
    (Comparable.literal (.float x)).token.IsWritten ∧
      ∃ segments, operands (Comparable.literal (.float x)).token.respell =
        [.ok (.member segments)] := by
  obtain ⟨cs, htext, hword⟩ := exists_isWord_of_float hx h
  rw [token_float]
  cases hnegative : x.negative with
  | true =>
    rw [hnegative] at htext
    refine ⟨.inr (.inr ⟨cs, htext, hword⟩), Text.splitOn '.' (String.ofList cs), ?_⟩
    rw [respell_of_minus htext hword]
    rfl
  | false =>
    rw [hnegative] at htext
    have hword : IsWord (x.text .explicit).toList := htext ▸ hword
    refine ⟨.inr (.inl hword), Text.splitOn '.' (x.text .explicit), ?_⟩
    rw [respell_of_isWord hword]
    rfl

end Respelling

end Filter

end RecordQuery
