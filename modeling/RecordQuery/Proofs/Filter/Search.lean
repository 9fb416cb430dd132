import RecordQuery.Proofs.Filter.Single
import RecordQuery.Proofs.Text.Lowercase

/-!
# What a search finds

A search looks at every text of a record that can be reached through the fields that are queried,
and it finds those whose lower-case form contains that of what it searches for. A word or a quoted
text is searched for as it is written, a number as the text of its value. What is searched for is
found wherever it stands, unless its lower-case form depends on what stands around it.
-/

namespace RecordQuery

section Texts

variable {ι : Type}

/-- Only texts are searched, in lower case. -/
theorem Value.finds_iff {needle : String} {v : Value ι} :
    v.finds needle = true ↔
      ∃ s, v = .string s ∧ Text.contains (Text.lowercase s) needle = true := by
  cases v <;> simp [finds]

variable [DecidableEq ι]

/-- The texts in a value: a text itself, those in the items of a list and in the fields of a record,
and the keys and values of a map that are texts. -/
inductive Registry.HasText (R : Registry ι) : Value ι → String → Prop
  | text (s : String) : HasText R (.string s) s
  | item {items : List (Value ι)} {v : Value ι} {s : String} (hv : v ∈ items)
      (h : HasText R v s) : HasText R (.list items) s
  | key {pairs : List (Value ι × Value ι)} {v : Value ι} {s : String}
      (h : (.string s, v) ∈ pairs) : HasText R (.map pairs) s
  | value {pairs : List (Value ι × Value ι)} {key : Value ι} {s : String}
      (h : (key, .string s) ∈ pairs) : HasText R (.map pairs) s
  | field {t : ι} {values : List (Value ι)} {name : String} {type : FieldType ι} {v : Value ι}
      {s : String} (hv : fieldOf? name (R.describe t).fields values = some (type, v))
      (h : HasText R v s) : HasText R (.record t values) s

variable {R : Registry ι} {needle : String}

namespace Registry

theorem searchItems_eq (items : List (Value ι)) :
    R.searchItems needle items = items.any (R.searchValue needle) := by
  induction items with
  | nil => rfl
  | cons v items ih => rw [searchItems, ih, List.any_cons]

/-- The fields that are searched are those that are read under their names. -/
theorem searchFields_iff {fields : List (Field ι)} (hnodup : (fields.filterMap Field.name?).Nodup)
    (values : List (Value ι)) :
    R.searchFields needle fields values = true ↔ ∃ name type v,
      fieldOf? name fields values = some (type, v) ∧ R.searchValue needle v = true := by
  induction fields generalizing values with
  | nil => simp [searchFields, fieldOf?]
  | cons field fields ih =>
    cases values with
    | nil => simp [searchFields, fieldOf?]
    | cons v values =>
      rw [searchFields, Bool.or_eq_true, Bool.and_eq_true]
      cases hname : field.name? with
      | none =>
        rw [List.filterMap_cons_none hname] at hnodup
        simp [Field.isVisible, hname, ih hnodup, fieldOf?]
      | some own =>
        rw [List.filterMap_cons_some hname, List.nodup_cons] at hnodup
        rw [ih hnodup.2, Field.isVisible, hname]
        constructor
        · rintro (⟨-, hv⟩ | ⟨name, type, w, hw, hfound⟩)
          · exact ⟨own, field.type, v, by rw [fieldOf?, if_pos hname], hv⟩
          · have hne : own ≠ name := by
              rintro rfl
              exact hnodup.1 (name_mem_of_fieldOf? hw)
            refine ⟨name, type, w, ?_, hfound⟩
            rw [fieldOf?, hname, if_neg (by simpa using hne), hw]
        · rintro ⟨name, type, w, hw, hfound⟩
          rw [fieldOf?, hname] at hw
          split at hw
          · cases hw
            exact .inl ⟨rfl, hfound⟩
          · exact .inr ⟨name, type, w, hw, hfound⟩

/-- A text that a value has is searched. -/
theorem HasText.searchValue {v : Value ι} {s : String} (h : R.HasText v s)
    (hs : Text.contains (Text.lowercase s) needle = true) : R.searchValue needle v = true := by
  induction h with
  | text s => exact hs
  | item hv h ih => exact (searchItems_eq _).trans (List.any_eq_true.2 ⟨_, hv, ih hs⟩)
  | key h =>
    refine List.any_eq_true.2 ⟨_, h, ?_⟩
    rw [Value.finds_iff.2 ⟨_, rfl, hs⟩, Bool.true_or]
  | value h =>
    refine List.any_eq_true.2 ⟨_, h, ?_⟩
    rw [Value.finds_iff.2 ⟨_, rfl, hs⟩, Bool.or_true]
  | @field t values name type v s hv h ih =>
    exact (searchFields_iff (R.describe t).names_nodup values).2 ⟨name, type, v, hv, ih hs⟩

/-- What a search finds in a value, it finds in a text that the value has. -/
theorem exists_hasText_of_searchValue : (v : Value ι) → R.searchValue needle v = true →
    ∃ s, R.HasText v s ∧ Text.contains (Text.lowercase s) needle = true
  | .string s, h => ⟨s, .text s, h⟩
  | .list items, h => by
    rw [searchValue, searchItems_eq, List.any_eq_true] at h
    obtain ⟨v, hv, hfound⟩ := h
    obtain ⟨s, hs, hcontains⟩ := exists_hasText_of_searchValue v hfound
    exact ⟨s, .item hv hs, hcontains⟩
  | .map pairs, h => by
    rw [searchValue, List.any_eq_true] at h
    obtain ⟨⟨key, v⟩, hmem, hfound⟩ := h
    rcases Bool.or_eq_true_iff.1 hfound with hkey | hv
    · obtain ⟨s, rfl, hcontains⟩ := Value.finds_iff.1 hkey
      exact ⟨s, .key hmem, hcontains⟩
    · obtain ⟨s, rfl, hcontains⟩ := Value.finds_iff.1 hv
      exact ⟨s, .value hmem, hcontains⟩
  | .record t values, h => by
    rw [searchValue, searchFields_iff (R.describe t).names_nodup] at h
    obtain ⟨name, type, v, hv, hfound⟩ := h
    have hmem := value_mem_of_fieldOf? hv
    obtain ⟨s, hs, hcontains⟩ := exists_hasText_of_searchValue v hfound
    exact ⟨s, .field hv hs, hcontains⟩
  | .null, h | .bool _, h | .number _, h => absurd h Bool.false_ne_true
termination_by v => sizeOf v
decreasing_by
  · have := List.sizeOf_lt_of_mem hv
    simp only [Value.list.sizeOf_spec]
    omega
  · have := List.sizeOf_lt_of_mem hmem
    simp only [Value.record.sizeOf_spec]
    omega

/-- A search finds what is contained in the lower-case form of a text of the value. -/
theorem searchValue_iff {v : Value ι} : R.searchValue needle v = true ↔
    ∃ s, R.HasText v s ∧ Text.contains (Text.lowercase s) needle = true := by
  constructor
  · exact exists_hasText_of_searchValue v
  · rintro ⟨s, hs, hcontains⟩
    exact hs.searchValue hcontains

end Registry

def Record.HasText {t : ι} (r : Record R t) (s : String) : Prop :=
  R.HasText r.toValue s

end Texts

namespace Filter

section Compiled

variable {ι : Type} [DecidableEq ι] {R : Registry ι} {t : ι} {c : Comparable} {s : String}

/-- A search compiles for every record type. -/
theorem exists_search (R : Registry ι) (t : ι) (h : IsOperand s c) :
    ∃ p, Predicate.parse R t s = .ok p ∧ p.filter = ofRestriction ⟨c, none⟩ := by
  have hparse := parse_search h
  obtain ⟨p, hp⟩ := (exists_predicate_iff (R := R) (t := t) hparse).2 rfl
  obtain ⟨f, hf, hcompile⟩ := Outcome.bind_eq_ok_iff.1 hp
  obtain rfl := Except.ok.inj (hparse.symm.trans hf)
  exact ⟨p, hp, (compile_eq_ok hcompile).1⟩

/-- A search accepts a record exactly if the lower-cased word is contained in some lower-cased text
of the record. -/
theorem accepts_search_iff {p : Predicate R t} (hp : p.filter = ofRestriction ⟨c, none⟩)
    (r : Record R t) : p.accepts r = true ↔ ∃ u, r.HasText u ∧
      Text.contains (Text.lowercase u) (Text.lowercase c.searchedText) = true := by
  have haccepts : p.accepts r = R.searchValue (Text.lowercase c.searchedText) r.toValue := by
    rw [Predicate.accepts, hp]
    simp only [ofRestriction, holds, expressionHolds, sequenceHolds, factorHolds, Term.holds,
      Restriction.evaluate, Registry.isTrue, Bool.bne_false, Bool.or_false, Bool.and_true]
    rfl
  rw [haccepts, Registry.searchValue_iff]
  exact Iff.rfl

end Compiled

section Written

variable {token : Token} {c : Comparable} {n s : String}

/-- What a comparable token says: a word or a number as it is written, and the content of a quoted
text. -/
def Token.content : Token → String
  | word w => w
  | text content => content
  | number n => n
  | _ => ""

/-- The tokens of which what is searched for is found wherever they are written: words and quoted
texts whose lower-case form does not depend on what stands around them, integers of 64 bits without
a sign, and other numbers in which the text of their value occurs. -/
inductive Token.IsPlain : Token → Prop
  | word {w : String} (h : Text.isSettled w = true) : IsPlain (.word w)
  | text {content : String} (h : Text.isSettled content = true) : IsPlain (.text content)
  | integer {n : String} (hdigits : isDigits n.toList = true)
      (hrange : IntegerType.int64.contains (Decimal.value n.toList) = true) : IsPlain (.number n)
  | number {n : String} {l : Literal} (hl : Literal.ofNumeral? n = some l)
      (h : Text.contains n (Comparable.literal l).searchedText = true) : IsPlain (.number n)

/-- The text of an unsigned integer ends the digits that it is written with. -/
theorem contains_searchedText_of_isDigits (hdigits : isDigits n.toList = true)
    (hrange : IntegerType.int64.contains (Decimal.value n.toList) = true) :
    ∃ l, Literal.ofNumeral? n = some l ∧
      Text.contains n (Comparable.literal l).searchedText = true := by
  obtain ⟨hne, hall⟩ := isDigits_iff.1 hdigits
  have hl : Literal.ofNumeral? n = some (.integer (.ofInt (Decimal.value n.toList))) := by
    have hread : Literal.ofNumeral? n = some (.ofInteger (writtenInteger false n.toList)) :=
      ofNumeral?_integer rfl hdigits
    rwa [writtenInteger, if_neg Bool.false_ne_true, Literal.ofInteger, if_pos hrange] at hread
  have hvalue : (Int64.ofInt (Decimal.value n.toList)).toInt = Decimal.value n.toList := by
    have hgreatest : IntegerType.int64.greatest = 2 ^ 63 - 1 := by decide
    rw [IntegerType.contains_iff, hgreatest] at hrange
    exact Int64.toInt_ofInt_of_le (by omega) (by omega)
  have htext :
      (Comparable.literal (.integer (.ofInt (Decimal.value n.toList)))).searchedText.toList =
        Nat.toDigits 10 (Decimal.value n.toList) := by
    change (String.ofList (Literal.integer _).chars).toList = _
    rw [String.toList_ofList, Literal.chars, hvalue, Decimal.toList_toString, if_neg (by omega),
      Int.natAbs_natCast]
  refine ⟨_, hl, Text.contains_iff.2 ?_⟩
  rw [htext]
  exact (Decimal.toDigits_value_suffix hne hall).isInfix

/-- A part of a numeral has no letters, so that nothing around it changes its lower-case form. -/
theorem isSettled_of_isNumeral (hn : isNumeral n.toList = true) (h : Text.contains n s = true) :
    Text.isSettled s = true := by
  apply Text.isSettled_of_not_mem
  intro hmem
  have hsigma : 'Σ' ∈ n.toList := (Text.contains_iff.1 h).subset hmem
  have hdigits {cs : List Char} (hcs : IsUnsigned cs) : 'Σ' ∉ cs := by
    intro hmem
    rcases hcs.forall_mem 'Σ' hmem with hdigit | hpoint
    · exact absurd hdigit (by decide)
    · exact absurd hpoint (by decide)
  rcases isNumeral_iff.1 hn with hcs | ⟨ds, hds, hcs⟩
  · exact hdigits hcs hsigma
  · rw [hds] at hsigma
    rcases List.mem_cons.1 hsigma with hminus | hsigma
    · exact absurd hminus (by decide)
    · exact hdigits hcs hsigma

/-- What is searched for occurs in what a plain token says, and is lower-cased the same way
everywhere. -/
theorem Token.IsPlain.searched (h : token.IsPlain) (hread : token.IsRead)
    (hc : token.comparable = .ok c) :
    Text.contains token.content c.searchedText = true ∧ Text.isSettled c.searchedText = true := by
  have hnumber {n : String} {l : Literal} (hread : (Token.number n).IsRead)
      (hl : Literal.ofNumeral? n = some l) (hc : (Token.number n).comparable = .ok c)
      (h : Text.contains n (Comparable.literal l).searchedText = true) :
      Text.contains n c.searchedText = true ∧ Text.isSettled c.searchedText = true := by
    rw [Token.comparable, hl] at hc
    obtain rfl := Except.ok.inj hc
    exact ⟨h, isSettled_of_isNumeral hread h⟩
  cases h with
  | @word w h =>
    obtain rfl := Except.ok.inj hc
    have hsearched : (Comparable.member (Text.splitOn '.' w)).searchedText = w :=
      Text.intercalate_splitOn '.' w
    rw [hsearched]
    exact ⟨Text.contains_iff.2 List.infix_rfl, h⟩
  | text h =>
    obtain rfl := Except.ok.inj hc
    exact ⟨Text.contains_iff.2 List.infix_rfl, h⟩
  | integer hdigits hrange =>
    obtain ⟨l, hl, h⟩ := contains_searchedText_of_isDigits hdigits hrange
    exact hnumber hread hl hc h
  | number hl h => exact hnumber hread hl hc h

end Written

section Searching

variable {ι : Type} [DecidableEq ι] {token : Token} {s : String}

/-- A comparable alone is a filter for every record type. It accepts the records that have a text in
whose lower-case form that of the searched text occurs. If the token is plain, all records are among
them that have a text in which what the token says occurs as it is written. -/
theorem search_finds_written (hlexes : Lexes s.toList [token]) (htoken : token.isOperand = true)
    (R : Registry ι) (t : ι) :
    ∃ c p, token.comparable = .ok c ∧ Predicate.parse R t s = .ok p ∧
      p.filter = ofRestriction ⟨c, none⟩ ∧
      ∀ r : Record R t,
        (p.accepts r = true ↔ ∃ u, r.HasText u ∧
          Text.contains (Text.lowercase u) (Text.lowercase c.searchedText) = true) ∧
        (token.IsPlain → ∀ u, r.HasText u → Text.contains u token.content = true →
          p.accepts r = true) := by
  have hread : token.IsRead := hlexes.isRead token List.mem_cons_self
  obtain ⟨c, hc⟩ := hread.exists_comparable htoken
  obtain ⟨p, hp, hfilter⟩ := exists_search R t ⟨token, hlexes, hc⟩
  refine ⟨c, p, hc, hp, hfilter, fun r ↦ ⟨accepts_search_iff hfilter r, ?_⟩⟩
  intro hplain u hu hwritten
  obtain ⟨hsearched, hsettled⟩ := hplain.searched hread hc
  exact (accepts_search_iff hfilter r).2
    ⟨u, hu, Text.contains_lowercase (Text.contains_trans hwritten hsearched) hsettled⟩

section Example

open Sample

def detailsWithKey (key : String) : Record library .details :=
  ⟨[.string key, .bool false, .ofSigned 0], rfl⟩

theorem hasText_detailsWithKey_iff {key u : String} :
    (detailsWithKey key).HasText u ↔ u = key := by
  constructor
  · intro h
    cases h with
    | field hv h =>
      have hmem := value_mem_of_fieldOf? hv
      simp only [detailsWithKey, List.mem_cons, List.not_mem_nil, or_false] at hmem
      rcases hmem with rfl | rfl | rfl <;> cases h
      rfl
  · rintro rfl
    have hkey : fieldOf? "key" (library.describe .details).fields (detailsWithKey u).fields =
        some (.scalar .string, .string u) := rfl
    exact .field hkey (.text u)

/-- Every capital sigma of the word stands before a letter. -/
theorem search_finds_written_wisdom :
    ∃ p, Predicate.parse library .details "ΣΟΦ" = .ok p ∧
      p.accepts (detailsWithKey "ΦΙΛΟΣΟΦΟΣ") = true := by
  have hword : IsWord "ΣΟΦ".toList :=
    ⟨by decide, List.all_eq_true.1 rfl, by decide, by decide⟩
  obtain ⟨c, p, -, hp, -, h⟩ := search_finds_written (lexes_word hword) rfl library .details
  have hfinds := (h (detailsWithKey "ΦΙΛΟΣΟΦΟΣ")).2 (.word (by decide +kernel))
  exact ⟨p, hp, hfinds _ (hasText_detailsWithKey_iff.2 rfl) (by decide)⟩

/-- A word that ends in a capital sigma is not found where it goes on, and a large number not where
it is written out. -/
theorem written_not_found :
    (Text.contains "ΟΔΟΣΗΜΑ" "ΟΔΟΣ" = true ∧ ∃ p,
      Predicate.parse library .details "ΟΔΟΣ" = .ok p ∧
        p.filter = ofRestriction ⟨.member ["ΟΔΟΣ"], none⟩ ∧
        p.accepts (detailsWithKey "ΟΔΟΣΗΜΑ") = false) ∧
    ∃ p, Predicate.parse library .details "100000000000000000000" = .ok p ∧
      p.accepts (detailsWithKey "100000000000000000000") = false := by
  have hrefuses {c : Comparable} {p : Predicate library .details} {key : String}
      (hp : p.filter = ofRestriction ⟨c, none⟩)
      (h : Text.contains (Text.lowercase key) (Text.lowercase c.searchedText) = false) :
      p.accepts (detailsWithKey key) = false := by
    rw [Bool.eq_false_iff, ne_eq, accepts_search_iff hp]
    rintro ⟨u, hu, hcontains⟩
    rw [hasText_detailsWithKey_iff.1 hu, h] at hcontains
    cases hcontains
  constructor
  · have hword : IsWord "ΟΔΟΣ".toList :=
      ⟨by decide, List.all_eq_true.1 rfl, by decide, by decide⟩
    obtain ⟨p, hp, hfilter⟩ := exists_search library .details ⟨_, lexes_word hword, rfl⟩
    refine ⟨by decide, p, hp, hfilter, hrefuses hfilter ?_⟩
    rw [Text.lowercase_eq, Text.lowercase_eq]
    decide +kernel
  · have hnumeral : isNumeral "100000000000000000000".toList = true := by decide
    obtain ⟨l, hl⟩ := exists_comparable_number hnumeral
    obtain ⟨p, hp, hfilter⟩ := exists_search library .details ⟨_, lexes_number hnumeral, hl⟩
    have htext : (Comparable.literal l).searchedText = "1e20" := by
      have h : (Token.number "100000000000000000000").comparable.toOption.map
          Comparable.searchedText = some "1e20" := by decide +kernel
      rw [hl] at h
      exact Option.some.inj h
    refine ⟨p, hp, hrefuses hfilter ?_⟩
    rw [htext, Text.lowercase_eq, Text.lowercase_eq]
    decide +kernel

end Example

end Searching

end Filter

end RecordQuery
