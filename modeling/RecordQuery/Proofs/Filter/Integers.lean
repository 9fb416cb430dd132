import RecordQuery.Proofs.Filter.Single
import RecordQuery.Proofs.Number.Order
import RecordQuery.Sample.Library

/-!
# Integers in filters

An integer of 64 bits in a filter is compared exactly with the value of an integer field, whatever
its signedness. A longer one is read as its nearest double, which equals every value that has the
same nearest double; all other values are compared with it as they should be. Values of 32 bits are
too far from such an integer to be mistaken for it.
-/

namespace RecordQuery

section Fields

variable {ι : Type} {k : IntegerType} {m n : Int}

/-- The values of an integer field are the integers in its range. -/
theorem Scalar.exists_ofInteger_of_admits {v : Value ι} (h : (integer k).admits v = true) :
    ∃ m, k.contains m = true ∧ v = .ofInteger k m := by
  rcases admits_cases h with h | h | ⟨type, n, htype, hsigned, rfl⟩ |
    ⟨type, n, htype, hsigned, rfl⟩ | ⟨type, x, htype, -⟩
  · simp at h
  · simp at h
  · obtain rfl := Scalar.integer.inj htype
    refine ⟨n.toInt, by simpa [admits, hsigned] using h, ?_⟩
    rw [Value.ofInteger, if_pos hsigned, Value.ofSigned, Int64.ofInt_toInt]
  · obtain rfl := Scalar.integer.inj htype
    refine ⟨n.toNat, by simpa [admits, hsigned] using h, ?_⟩
    rw [Value.ofInteger, if_neg (by simp [hsigned]), Value.ofUnsigned, Int.toNat_natCast,
      UInt64.ofNat_toNat]
  · simp at htype

/-- An integer in the range of its kind is held as a number of exactly that value. -/
theorem Value.exists_number_ofInteger (h : k.contains m = true) :
    ∃ a, (ofInteger k m : Value ι) = .number a ∧ a.integer? = some m := by
  rw [IntegerType.contains_iff] at h
  cases k with
  | int32 | int64 =>
    simp only [IntegerType.least, IntegerType.greatest] at h
    exact ⟨_, rfl, congrArg some (Int64.toInt_ofInt_of_le (by omega) (by omega))⟩
  | uint32 | uint64 =>
    simp only [IntegerType.least, IntegerType.greatest] at h
    have hvalue : (UInt64.ofNat m.toNat).toNat = m.toNat :=
      UInt64.toNat_ofNat_of_lt' (by simp only [UInt64.size]; omega)
    refine ⟨_, rfl, congrArg some ?_⟩
    rw [hvalue, Int.toNat_of_nonneg h.1]

/-- Different integers in the range of one kind are held as different values. -/
theorem Value.ofInteger_injOn (hm : k.contains m = true) (hn : k.contains n = true)
    (h : (ofInteger k m : Value ι) = ofInteger k n) : m = n := by
  obtain ⟨a, ha, hinteger⟩ := exists_number_ofInteger (ι := ι) hm
  obtain ⟨b, hb, hinteger'⟩ := exists_number_ofInteger (ι := ι) hn
  obtain rfl := Value.number.inj (ha.symm.trans (h.trans hb))
  exact Option.some.inj (hinteger.symm.trans hinteger')

end Fields

/-- The relation between integers that an operator tests. Containment is equality. -/
def Operator.Relates : Operator → Int → Int → Prop
  | eq, m, n | has, m, n => m = n
  | ne, m, n => m ≠ n
  | gt, m, n => n < m
  | gte, m, n => n ≤ m
  | lt, m, n => m < n
  | lte, m, n => m ≤ n

section Comparing

variable {ι : Type} [DecidableEq ι] {m n : Int}

/-- Numbers that are ordered as two integers are compared as these. -/
theorem Registry.exists_compare_numbers (R : Registry ι) (op : Operator) {a b : Number}
    (h : a.compare? b = some (compareInts m n)) :
    ∃ outcome, R.compare op (.number a) (.number b) = .ok outcome ∧
      (outcome = true ↔ op.Relates m n) := by
  have hsame : a.same b = true ↔ m = n := by
    rw [Number.same, h, compareInts_eq_compare, ← compare_eq_iff_eq (a := m)]
    simp
  have hordered (hop : op.isOrdering = true) :
      R.compare op (.number a) (.number b) = .ok (op.holds (compareInts m n)) := by
    cases op <;> simp_all [compare, Value.isList, compareLeaves, Operator.isOrdering]
  cases op with
  | eq | has => exact ⟨a.same b, by simp [compare, Value.isList, compareLeaves, has, equal], hsame⟩
  | ne =>
    refine ⟨!a.same b, by simp [compare, Value.isList, compareLeaves, equal], ?_⟩
    rw [Bool.not_eq_true', ← Bool.not_eq_true, hsame]
    rfl
  | gt =>
    refine ⟨_, hordered rfl, ?_⟩
    rw [Operator.holds, beq_iff_eq, compareInts_eq_compare, compare_gt_iff_gt]
    rfl
  | gte =>
    refine ⟨_, hordered rfl, ?_⟩
    rw [Operator.holds, bne_iff_ne, ne_eq, compareInts_eq_compare, compare_lt_iff_lt, not_lt]
    rfl
  | lt =>
    refine ⟨_, hordered rfl, ?_⟩
    rw [Operator.holds, beq_iff_eq, compareInts_eq_compare, compare_lt_iff_lt]
    rfl
  | lte =>
    refine ⟨_, hordered rfl, ?_⟩
    rw [Operator.holds, bne_iff_ne, compareInts_ne_gt_iff]
    rfl

end Comparing

namespace Filter

section Blurring

variable {m d : Int}

/-- Whether an integer in a filter cannot be told from a value: it has more than 64 bits, and its
nearest double is that of the value. -/
def IsBlurred (m d : Int) : Prop :=
  IntegerType.int64.contains d = false ∧ Floating.ofInt .binary64 m = .ofInt .binary64 d

instance : Decidable (IsBlurred m d) :=
  inferInstanceAs (Decidable (_ ∧ _))

/-- An integer in a filter is a number. A value is ordered against it as against the integer, unless
it cannot be told from the integer: then it is ordered as against itself. -/
theorem exists_value_ofInteger (ι : Type) (d : Int) :
    ∃ b, ((Literal.ofInteger d).value : Value ι) = .number b ∧
      ∀ (a : Number) (m : Int), a.integer? = some m →
        a.compare? b = some (compareInts m (if IsBlurred m d then m else d)) := by
  cases hd : IntegerType.int64.contains d with
  | true =>
    have hrange : -0x8000000000000000 ≤ d ∧ d ≤ 0x7FFFFFFFFFFFFFFF :=
      IntegerType.contains_iff.1 hd
    have hinteger : (Number.signed (.ofInt d)).integer? = some d :=
      congrArg some (Int64.toInt_ofInt_of_le (by omega) (by omega))
    refine ⟨.signed (.ofInt d), by rw [Literal.ofInteger, hd]; rfl, fun a m ha ↦ ?_⟩
    rw [Number.compare?_integers ha hinteger, if_neg (by simp [IsBlurred, hd])]
  | false =>
    refine ⟨.float (.ofInt .binary64 d), by rw [Literal.ofInteger, hd]; rfl, fun a m ha ↦ ?_⟩
    rw [Number.compare?_doubles (.inr rfl), Number.toDouble_of_integer? ha, Number.toDouble,
      Floating.compare?, Floating.isNaN_ofInt, Floating.isNaN_ofInt, Bool.or_false,
      if_neg Bool.false_ne_true, Floating.compareInts_key_ofInt]
    by_cases hshared : Floating.ofInt .binary64 m = .ofInt .binary64 d
    · rw [if_pos hshared, if_pos ⟨hd, hshared⟩, compareInts_eq_compare, compare_eq_iff_eq.2 rfl]
    · rw [if_neg hshared, if_neg fun h ↦ hshared h.2]

/-- The values of 32 bits can be told from all integers. -/
theorem not_isBlurred {k : IntegerType} (hk : k = .int32 ∨ k = .uint32) (hm : k.contains m = true) :
    ¬ IsBlurred m d := by
  rintro ⟨hd, hshared⟩
  have hsmall : -0x80000000 ≤ m ∧ m ≤ 0xFFFFFFFF := by
    rw [IntegerType.contains_iff] at hm
    rcases hk with rfl | rfl <;> simp only [IntegerType.least, IntegerType.greatest] at hm <;> omega
  have hlarge : d < -0x8000000000000000 ∨ 0x7FFFFFFFFFFFFFFF < d := by
    rw [← Bool.not_eq_true, IntegerType.contains_iff] at hd
    simp only [IntegerType.least, IntegerType.greatest] at hd
    omega
  rcases hlarge with hlow | hhigh
  · exact Floating.ofInt_ne_of_between (-0x8000000000000000) (-0x80000000)
      (by decide +kernel) hlow.le hsmall.1 hshared.symm
  · exact Floating.ofInt_ne_of_between 0xFFFFFFFF 0x7FFFFFFFFFFFFFFF
      (by decide +kernel) hsmall.2 hhigh.le hshared

end Blurring

section Compiled

variable {ι : Type} [DecidableEq ι] {R : Registry ι} {t : ι} {names : List String}
  {k : IntegerType} {op : Operator} {digits : List Char} {negative : Bool} {p numeral : String}

/-- An integer field has a value in its range. -/
theorem exists_resolve_integer (h : R.Reaches t names (.integer k)) {values : List (Value ι)}
    (hvalues : fieldsConform R.describe (R.describe t).fields values = true) :
    ∃ m, k.contains m = true ∧
      Comparable.resolve R t values (.member names) = .ok (.ofInteger k m) := by
  obtain ⟨v, hv, hadmits⟩ :=
    h.exists_resolveBelow (Registry.conformIfPresent_some hvalues) (".".intercalate names)
  obtain ⟨m, hm, rfl⟩ := Scalar.exists_ofInteger_of_admits hadmits
  refine ⟨m, hm, ?_⟩
  rw [← hv]
  cases h with
  | scalar hfield | through hfield =>
    rw [Comparable.resolve, Registry.memberValue, hfield, Option.isSome_some, if_pos rfl]

/-- A word can be compared with an integer. -/
theorem parse_integer_comparison (op : Operator) (hword : IsWord p.toList)
    (hn : numeral.toList = Floating.signChars negative ++ digits)
    (hdigits : isDigits digits = true) :
    Filter.parse (p ++ " " ++ op.text ++ " " ++ numeral) =
      .ok (ofRestriction ⟨.member (Text.splitOn '.' p),
        some (op, .literal (.ofInteger (writtenInteger negative digits)))⟩) := by
  have hnumeral : isNumeral numeral.toList = true := by
    rw [hn]
    exact isNumeral_signChars negative (.of_isDigits hdigits)
  have hcomparable : (Token.number numeral).comparable =
      .ok (.literal (.ofInteger (writtenInteger negative digits))) := by
    rw [Token.comparable, ofNumeral?_integer hn hdigits]
  have hlexes := lexes_comparison (lexes_word hword) (lexes_number hnumeral) op
  exact (parse_comparison_iff hlexes hcomparable).2 ⟨_, rfl, rfl⟩

/-- A comparison of an integer field with an integer is evaluated on every record. -/
theorem exists_evaluate_integer (op : Operator) (d : Int) (hfield : R.Reaches t names (.integer k))
    {values : List (Value ι)}
    (hvalues : fieldsConform R.describe (R.describe t).fields values = true) :
    ∃ m outcome, k.contains m = true ∧
      Comparable.resolve R t values (.member names) = .ok (.ofInteger k m) ∧
      Restriction.evaluate R t values ⟨.member names, some (op, .literal (.ofInteger d))⟩ =
        .ok outcome ∧
      (outcome = true ↔ op.Relates m (if IsBlurred m d then m else d)) := by
  obtain ⟨m, hm, hresolve⟩ := exists_resolve_integer hfield hvalues
  obtain ⟨a, hvalue, ha⟩ := Value.exists_number_ofInteger (ι := ι) hm
  obtain ⟨b, hb, hcompare⟩ := exists_value_ofInteger ι d
  obtain ⟨outcome, houtcome, hiff⟩ := R.exists_compare_numbers op (hcompare a m ha)
  have hargument : Comparable.resolve R t values (.literal (.ofInteger d)) = .ok (.number b) :=
    congrArg Except.ok hb
  refine ⟨m, outcome, hm, hresolve, ?_, hiff⟩
  simp only [Restriction.evaluate, hresolve, hargument, hvalue, houtcome]

/-- A comparison of an integer field with an integer compiles. What it says of a record is decided by
the value of the field. -/
theorem exists_predicate_integer (op : Operator) (hword : IsWord p.toList)
    (hn : numeral.toList = Floating.signChars negative ++ digits)
    (hdigits : isDigits digits = true)
    (hfield : R.Reaches t (Text.splitOn '.' p) (.integer k)) :
    ∃ c, Predicate.parse R t (p ++ " " ++ op.text ++ " " ++ numeral) = .ok c ∧
      ∀ r : Record R t, ∃ m, k.contains m = true ∧
        Comparable.resolve R t r.fields (.member (Text.splitOn '.' p)) = .ok (.ofInteger k m) ∧
        (c.accepts r = true ↔ op.Relates m
          (if IsBlurred m (writtenInteger negative digits) then m
          else writtenInteger negative digits)) := by
  have hparse := parse_integer_comparison op hword hn hdigits
  generalize writtenInteger negative digits = d at *
  obtain ⟨c, hc⟩ : ∃ c, Predicate.parse R t (p ++ " " ++ op.text ++ " " ++ numeral) = .ok c := by
    obtain ⟨-, outcome, -, -, houtcome, -⟩ :=
      exists_evaluate_integer op d hfield (R.default_conforms t)
    rw [exists_predicate_iff hparse]
    refine List.all_eq_true.2 fun r hr ↦ ?_
    obtain rfl := List.mem_singleton.1 hr
    rw [← Restriction.isOk_evaluate (R.default_conforms t), houtcome]
    rfl
  refine ⟨c, hc, fun r ↦ ?_⟩
  obtain ⟨m, outcome, hm, hresolve, houtcome, hiff⟩ :=
    exists_evaluate_integer op d hfield r.fields_conform
  have haccepts : c.accepts r = outcome := by
    obtain ⟨f, hf, hcompile⟩ := Outcome.bind_eq_ok_iff.1 hc
    obtain rfl := Except.ok.inj (hparse.symm.trans hf)
    have hevaluate := evaluate_eq_accepts c r
    rw [(compile_eq_ok hcompile).1, evaluate_ofRestriction houtcome] at hevaluate
    exact (Except.ok.inj hevaluate).symm
  exact ⟨m, hm, hresolve, haccepts ▸ hiff⟩

/-- A comparison of an integer field with an integer compiles, whatever the length of the integer. It
accepts the records whose value the operator relates to the integer, except for values that cannot
be told from the integer: these are taken for it. No value of 32 bits is among them. -/
theorem integers_compared_unless_blurred (op : Operator) (hword : IsWord p.toList)
    (hn : numeral.toList = Floating.signChars negative ++ digits)
    (hdigits : isDigits digits = true)
    (hfield : R.Reaches t (Text.splitOn '.' p) (.integer k)) :
    ∃ c, Predicate.parse R t (p ++ " " ++ op.text ++ " " ++ numeral) = .ok c ∧
      ∀ r : Record R t, ∃ m, k.contains m = true ∧
        Comparable.resolve R t r.fields (.member (Text.splitOn '.' p)) = .ok (.ofInteger k m) ∧
        (¬ IsBlurred m (writtenInteger negative digits) →
          (c.accepts r = true ↔ op.Relates m (writtenInteger negative digits))) ∧
        (IsBlurred m (writtenInteger negative digits) →
          (c.accepts r = true ↔ op.Relates m m)) ∧
        (k = .int32 ∨ k = .uint32 → ¬ IsBlurred m (writtenInteger negative digits)) := by
  obtain ⟨c, hc, haccepts⟩ := exists_predicate_integer op hword hn hdigits hfield
  refine ⟨c, hc, fun r ↦ ?_⟩
  obtain ⟨m, hm, hresolve, hiff⟩ := haccepts r
  refine ⟨m, hm, hresolve, fun hblurred ↦ ?_, fun hblurred ↦ ?_, fun hk ↦ not_isBlurred hk hm⟩
  · rwa [if_neg hblurred] at hiff
  · rwa [if_pos hblurred] at hiff

end Compiled

section Example

open Sample

/-- No book has as many copies. -/
theorem copies_compared :
    ∃ c, Predicate.parse library .book "copies >= 99999999999999999999" = .ok c ∧
      ∀ r, c.accepts r = false := by
  have hword : IsWord "copies".toList :=
    ⟨by decide, List.all_eq_true.1 rfl, by decide, by decide⟩
  have hfield : library.Reaches .book (Text.splitOn '.' "copies") (.integer .uint32) :=
    .scalar rfl rfl
  have hn : "99999999999999999999".toList =
      Floating.signChars false ++ "99999999999999999999".toList := rfl
  obtain ⟨c, hc, h⟩ := integers_compared_unless_blurred .gte hword hn (by decide) hfield
  refine ⟨c, hc, fun r ↦ ?_⟩
  obtain ⟨m, hm, -, hexact, -, hnarrow⟩ := h r
  rw [← Bool.not_eq_true, hexact (hnarrow (.inr rfl))]
  have hle : m ≤ 0xFFFFFFFF := (IntegerType.contains_iff.1 hm).2
  have hvalue : writtenInteger false "99999999999999999999".toList = 99999999999999999999 := by
    decide
  rw [hvalue, Operator.Relates]
  omega

/-- A node whose identifier is one more than `2 ^ 63`. -/
def farNode : Record library .node :=
  (Record.default.assign ["id"] (.ofUnsigned 0x8000000000000001)).2

/-- The identifier `2 ^ 63` is also found where the next one is held. -/
theorem farNode_mistaken :
    farNode.valueAt? ["id"] = some (.ofUnsigned 0x8000000000000001) ∧
      ∃ c, Predicate.parse library .node "id = 9223372036854775808" = .ok c ∧
        c.accepts farNode = true := by
  refine ⟨rfl, ?_⟩
  have hword : IsWord "id".toList := ⟨by decide, List.all_eq_true.1 rfl, by decide, by decide⟩
  have hfield : library.Reaches .node (Text.splitOn '.' "id") (.integer .uint64) := .scalar rfl rfl
  have hn : "9223372036854775808".toList =
      Floating.signChars false ++ "9223372036854775808".toList := rfl
  obtain ⟨c, hc, h⟩ := exists_predicate_integer .eq hword hn (by decide) hfield
  refine ⟨c, hc, ?_⟩
  obtain ⟨m, hm, hresolve, hiff⟩ := h farNode
  have hid : Comparable.resolve library .node farNode.fields (.member (Text.splitOn '.' "id")) =
      .ok (.ofInteger .uint64 0x8000000000000001) := rfl
  obtain rfl : m = 0x8000000000000001 :=
    Value.ofInteger_injOn hm (by decide) (Except.ok.inj (hresolve.symm.trans hid))
  have hblurred : IsBlurred 0x8000000000000001 (writtenInteger false "9223372036854775808".toList) := by
    decide +kernel
  rw [hiff, if_pos hblurred]
  rfl

end Example

end Filter

end RecordQuery
