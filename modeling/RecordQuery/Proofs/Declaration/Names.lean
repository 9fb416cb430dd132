import RecordQuery.Proofs.Declaration.Derive
import RecordQuery.Proofs.Filter.Single
import RecordQuery.Proofs.Order.Parser
import RecordQuery.Proofs.Resolve.Walk

/-!
# The names of derived fields in queries

A query name is a path in an order, whatever segment it is. In a filter it is a word unless it is a
keyword or consists of digits: a keyword leaves the text without meaning, and digits are a number.
-/

namespace RecordQuery

section Segments

variable {c : Char} {s : String}

theorem inWord_of_isSegmentChar (h : isSegmentChar c = true) : Filter.inWord c = true := by
  by_contra hword
  rcases Filter.special_of_not_inWord (isBlank_of_isSegmentChar h) hword with
    rfl | rfl | rfl | rfl | rfl | rfl | rfl | rfl | rfl <;> exact absurd h (by decide)

variable (h : isSegment s = true)

include h

theorem inWord_of_isSegment : ∀ c ∈ s.toList, Filter.inWord c = true :=
  fun c hc ↦ inWord_of_isSegmentChar ((isSegment_iff.1 h).2 c hc)

/-- A segment without an order is sorted by in ascending order. -/
theorem Order.exists_parse_segment :
    ∃ path order, Order.parse s = .ok order ∧ order.keys = [⟨path, .asc⟩] ∧
      path.segments = [s] := by
  obtain ⟨path, hpath, hsegments⟩ := FieldPath.exists_parse_segment h
  let order : Order := ⟨[⟨path, .asc⟩], List.nodup_singleton _⟩
  have htext : s = order.text :=
    (FieldPath.parse_eq_ok_iff.1 hpath).trans String.intercalate_singleton.symm
  exact ⟨path, order, htext ▸ order.parse_text, rfl, hsegments⟩

end Segments

namespace Filter

/-- The words that mean something else than themselves in a filter. -/
def keywords : List String :=
  ["AND", "OR", "NOT"]

variable {n w : String} {c : Comparable}

/-- A segment has no point, so it is a numeral only if it is all digits. -/
theorem isNumeral_of_isSegment (h : isSegment n = true) :
    isNumeral n.toList = isDigits n.toList := by
  rw [Bool.eq_iff_iff, isNumeral_iff]
  constructor
  · rintro (⟨whole, fraction, hn, hwhole, rfl | ⟨ds, rfl, -⟩⟩ | ⟨ds, hn, -⟩)
    · rwa [hn, List.append_nil]
    · exact absurd (hn ▸ List.mem_append_right whole List.mem_cons_self)
        (FieldPath.not_mem_of_isSegment h (c := '.') (by decide))
    · exact absurd (hn ▸ List.mem_cons_self)
        (FieldPath.not_mem_of_isSegment h (c := '-') (by decide))
  · intro hdigits
    exact .inl (.of_isDigits hdigits)

/-- A segment other than a keyword is lexed as a number if it is all digits and as a word otherwise.
-/
theorem classify_of_not_mem_keywords (h : isSegment n = true) (hn : n ∉ keywords) :
    classify n.toList = if isDigits n.toList then .number n else .word n := by
  have hne (keyword : String) (hkeyword : keyword ∈ keywords) :
      (n.toList == keyword.toList) = false := by
    rw [beq_eq_false_iff_ne, ne_eq, String.toList_inj]
    rintro rfl
    exact hn hkeyword
  have hand : (n.toList == ['A', 'N', 'D']) = false := hne "AND" (by decide)
  have hor : (n.toList == ['O', 'R']) = false := hne "OR" (by decide)
  have hnot : (n.toList == ['N', 'O', 'T']) = false := hne "NOT" (by decide)
  simp only [classify, hand, hor, hnot, isNumeral_of_isSegment h, String.ofList_toList,
    Bool.false_eq_true, if_false]

/-- A segment is one token. -/
theorem lexes_segment (h : isSegment n = true) : Lexes n.toList [classify n.toList] := by
  have hhead : n.toList.head? ≠ some '-' := by
    intro hhead
    exact FieldPath.not_mem_of_isSegment h (c := '-') (by decide) (List.mem_of_head? hhead)
  have hlexes := Lexes.keyword (by simp [Stops]) (.nil rfl : Lexes [] [])
    (List.all_eq_true.2 (inWord_of_isSegment h)) (isSegment_iff.1 h).1 hhead
  rwa [List.append_nil] at hlexes

/-- A keyword is never the operand of a restriction. -/
theorem comparable_ne_of_mem_keywords (h : n ∈ keywords) (c : Comparable) :
    (classify n.toList).comparable ≠ .ok c := by
  simp only [keywords, List.mem_cons, List.not_mem_nil, or_false] at h
  rcases h with rfl | rfl | rfl <;> nofun

/-- A comparison of which the left side is a segment. -/
theorem parse_segment_iff {f : Filter} (h : isSegment n = true) (hw : IsOperand w c) :
    Filter.parse (n ++ " = " ++ w) = .ok f ↔
      ∃ d, (classify n.toList).comparable = .ok d ∧ f = ofRestriction ⟨d, some (.eq, c)⟩ := by
  obtain ⟨token, hlexes, hc⟩ := hw
  have htext : (n ++ " = " ++ w).toList = (n ++ " " ++ Operator.eq.text ++ " " ++ w).toList := by
    simp [Operator.text]
  exact parse_comparison_iff (htext ▸ lexes_comparison (lexes_segment h) hlexes .eq) hc

section Sides

variable (h : isSegment n = true) (hw : IsOperand w c)

include h hw

/-- A segment that is no keyword and no number stands for itself. -/
theorem parse_member (hkeyword : n ∉ keywords) (hdigits : isDigits n.toList = false) :
    Filter.parse (n ++ " = " ++ w) = .ok (ofRestriction ⟨.member [n], some (.eq, c)⟩) := by
  refine (parse_segment_iff h hw).2 ⟨_, ?_, rfl⟩
  rw [classify_of_not_mem_keywords h hkeyword, hdigits, if_neg Bool.false_ne_true, Token.comparable,
    Text.splitOn_of_not_mem (FieldPath.not_mem_of_isSegment h (by decide))]

/-- Digits stand for a number. -/
theorem exists_parse_number (hdigits : isDigits n.toList = true) :
    ∃ l, Filter.parse (n ++ " = " ++ w) = .ok (ofRestriction ⟨.literal l, some (.eq, c)⟩) := by
  have hnumeral : isNumeral n.toList = true := (isNumeral_of_isSegment h).trans hdigits
  obtain ⟨l, hl⟩ := exists_comparable_number hnumeral
  refine ⟨l, (parse_segment_iff h hw).2 ⟨_, ?_, rfl⟩⟩
  rw [classify_of_isNumeral hnumeral, String.ofList_toList, hl]

/-- A keyword cannot be compared with anything. -/
theorem parse_keyword_ne (hkeyword : n ∈ keywords) (f : Filter) :
    Filter.parse (n ++ " = " ++ w) ≠ .ok f := by
  intro hparse
  obtain ⟨d, hd, -⟩ := (parse_segment_iff h hw).1 hparse
  exact comparable_ne_of_mem_keywords hkeyword d hd

end Sides

end Filter

/-- A member of one segment that names a field stands for the value of that field. -/
theorem Record.exists_get? {ι : Type} [DecidableEq ι] {R : Registry ι} {t : ι} (record : Record R t)
    {name : String} (h : name ∈ (R.describe t).fields.filterMap Field.name?) :
    ∃ v, record.get? name = some v ∧
      Filter.Comparable.resolve R t record.fields (.member [name]) = .ok v := by
  obtain ⟨field, hfield⟩ : ∃ field, (R.describe t).field? name = some field := by
    obtain ⟨field, hmem, hname⟩ := List.mem_filterMap.1 h
    exact Option.isSome_iff_exists.1 (List.find?_isSome.2 ⟨field, hmem, by simp [hname]⟩)
  obtain ⟨v, hv, -⟩ := exists_fieldOf? record.fields_conform hfield
  have hget : record.get? name = some v := by
    rw [Record.get?, hv]
    rfl
  refine ⟨v, hget, ?_⟩
  rw [Filter.Comparable.resolve, Registry.memberValue, hfield, Option.isSome_some, if_pos rfl,
    Registry.resolveBelow_end hfield]
  change Except.ok ((record.get? name).getD _) = .ok v
  rw [hget, Option.getD_some]

namespace Declaration

variable {d : Declaration} {r : DerivedRecord} {fields : List FieldDeclaration}
  {f : FieldDeclaration}

/-- Every field of a derived record type is sorted by under its query name. It is compared under it
in a filter, as the left side of a comparison with any operand, unless the name is a keyword, which
is refused there, or consists of digits, which stand for a number. -/
theorem names_in_queries (hr : d.derive = .ok r) (hbody : d.body = .fields fields)
    (hf : f ∈ listed fields) :
    (∃ path order, Order.parse f.queryName = .ok order ∧ order.keys = [⟨path, .asc⟩] ∧
      path.segments = [f.queryName]) ∧
    (∀ (ι : Type) [DecidableEq ι] (R : Registry ι) (t : ι),
      (R.describe t).fields.filterMap Field.name? = r.types.map Prod.fst →
      ∀ record : Record R t, ∃ v, record.get? f.queryName = some v ∧
        Filter.Comparable.resolve R t record.fields (.member [f.queryName]) = .ok v) ∧
    ∀ (w : String) (c : Filter.Comparable), Filter.IsOperand w c →
      (f.queryName ∉ Filter.keywords → Filter.isDigits f.queryName.toList = false →
        Filter.parse (f.queryName ++ " = " ++ w) =
          .ok (Filter.ofRestriction ⟨.member [f.queryName], some (.eq, c)⟩)) ∧
      (Filter.isDigits f.queryName.toList = true →
        ∃ l, Filter.parse (f.queryName ++ " = " ++ w) =
          .ok (Filter.ofRestriction ⟨.literal l, some (.eq, c)⟩)) ∧
      (f.queryName ∈ Filter.keywords →
        ∀ g, Filter.parse (f.queryName ++ " = " ++ w) ≠ .ok g) := by
  obtain ⟨fields', hd, rfl⟩ := derive_eq_ok_iff.1 hr
  obtain rfl : fields' = fields := Body.fields.inj (hd.body_eq.symm.trans hbody)
  have hsegment := hd.names_segments f hf
  refine ⟨Order.exists_parse_segment hsegment, ?_, ?_⟩
  · intro ι _ R t hnames record
    apply record.exists_get?
    rw [hnames, DerivedRecord.ofFields, List.map_map]
    exact List.mem_map_of_mem hf
  · intro w c hw
    exact ⟨Filter.parse_member hsegment hw, Filter.exists_parse_number hsegment hw,
      Filter.parse_keyword_ne hsegment hw⟩

/-- The fields of a date, as they are declared. -/
def dateFields : List FieldDeclaration :=
  [⟨"year", "i32", []⟩, ⟨"month", "u32", []⟩]

theorem names_in_queries_year : ∃ r, derive ⟨"Date", "", [], .fields dateFields⟩ = .ok r ∧
    Filter.parse "year = 1984" =
      .ok (Filter.ofRestriction ⟨.member ["year"], some (.eq, .literal (.integer 1984))⟩) ∧
    ∀ date : Record Sample.library .date, ∃ v, date.get? "year" = some v ∧
      Filter.Comparable.resolve Sample.library .date date.fields (.member ["year"]) = .ok v := by
  obtain ⟨r, hr⟩ : ∃ r, derive ⟨"Date", "", [], .fields dateFields⟩ = .ok r :=
    Outcome.exists_eq_ok_of_isOk (by decide)
  have hnames : (Sample.library.describe .date).fields.filterMap Field.name? =
      r.types.map Prod.fst := by
    obtain rfl := Except.ok.inj hr
    rfl
  have hoperand : Filter.IsOperand "1984" (.literal (.integer 1984)) :=
    ⟨_, Filter.lexes_number (by decide), by with_unfolding_all rfl⟩
  have h := names_in_queries hr rfl (List.mem_cons_self : ⟨"year", "i32", []⟩ ∈ listed dateFields)
  exact ⟨r, hr, (h.2.2 _ _ hoperand).1 (by decide) (by decide), h.2.1 _ _ _ hnames⟩

/-- A field whose name is a number is accepted, but a filter compares the number instead of it. -/
theorem number_as_name :
    ∃ r, derive ⟨"Book", "", [], .fields
        [⟨"sales", "i64", [.record [.assignment "rename" (.text "2024")]]⟩]⟩ = .ok r ∧
      r.types = [("2024", "i64")] ∧
      Filter.parse "2024 = 1" = .ok (Filter.ofRestriction
        ⟨.literal (.integer 2024), some (.eq, .literal (.integer 1))⟩) := by
  refine ⟨_, rfl, rfl, ?_⟩
  with_unfolding_all rfl

end Declaration

end RecordQuery
