import RecordQuery.FieldPath
import RecordQuery.Proofs.Text.Split
import RecordQuery.Text.Blank

/-!
# Texts of paths

A text is a segment exactly if nothing keeps it from being one, and it is a path exactly if it consists of
segments with dots between them. A path is therefore read back from its text, and no blank occurs in it.
-/

namespace RecordQuery

variable {s : String} {c : Char}

theorem isBlank_of_isSegmentChar (h : isSegmentChar c = true) : Text.isBlank c = false := by
  have hbounds {low high : UInt32} (h : low ≤ c.val ∧ c.val ≤ high) :
      low.toNat ≤ c.toNat ∧ c.toNat ≤ high.toNat :=
    h.imp UInt32.le_iff_toNat_le.1 UInt32.le_iff_toNat_le.1
  have hboth {low high : UInt32} (h : (decide (low ≤ c.val) && decide (c.val ≤ high)) = true) :
      low.toNat ≤ c.toNat ∧ c.toNat ≤ high.toNat :=
    hbounds ((Bool.and_eq_true_iff.1 h).imp of_decide_eq_true of_decide_eq_true)
  have hrange : 48 ≤ c.toNat ∧ c.toNat ≤ 122 := by
    rcases Bool.or_eq_true_iff.1 h with h | h
    · rcases Bool.or_eq_true_iff.1 h with h | hdigit
      · rcases Bool.or_eq_true_iff.1 h with hupper | hlower
        · have : 65 ≤ c.toNat ∧ c.toNat ≤ 90 := hbounds (of_decide_eq_true hupper)
          omega
        · have : 97 ≤ c.toNat ∧ c.toNat ≤ 122 := hboth hlower
          omega
      · have : 48 ≤ c.toNat ∧ c.toNat ≤ 57 := hboth hdigit
        omega
    · obtain rfl := beq_iff_eq.1 h
      decide
  simp only [Text.isBlank, Bool.or_eq_false_iff, Bool.and_eq_false_iff, decide_eq_false_iff_not,
    beq_eq_false_iff_ne]
  omega

theorem isSegment_iff :
    isSegment s = true ↔ s.toList ≠ [] ∧ ∀ c ∈ s.toList, isSegmentChar c = true := by
  simp [isSegment]

namespace FieldPath

theorem segmentFault?_eq_none_iff : segmentFault? s = none ↔ isSegment s = true := by
  constructor
  · exact isSegment_of_segmentFault?
  · intro h
    obtain ⟨hne, hchars⟩ := isSegment_iff.1 h
    rw [segmentFault?, if_neg (by simpa using hne), Option.map_eq_none_iff, List.find?_eq_none]
    intro c hc
    simp [hchars c hc]

theorem not_mem_of_isSegment (h : isSegment s = true) {c : Char} (hc : isSegmentChar c = false) :
    c ∉ s.toList := by
  intro hmem
  simp [(isSegment_iff.1 h).2 c hmem] at hc

/-- The segments of a path are found again in its text. -/
theorem splitOn_text (path : FieldPath) : Text.splitOn '.' path.text = path.segments :=
  Text.splitOn_intercalate
    (fun segment hsegment ↦ not_mem_of_isSegment (path.segments_valid segment hsegment) (by decide))
    path.segments_ne_nil

/-- A path is parsed from its own text and from no other. -/
theorem parse_eq_ok_iff {path : FieldPath} : parse s = .ok path ↔ s = path.text := by
  constructor
  · intro h
    unfold parse at h
    dsimp only at h
    split at h
    · cases h
    · rw [← Except.ok.inj h]
      exact (Text.intercalate_splitOn '.' s).symm
  · rintro rfl
    have hfault : (Text.splitOn '.' path.text).findSome? segmentFault? = none := by
      rw [splitOn_text, List.findSome?_eq_none_iff]
      intro segment hsegment
      exact segmentFault?_eq_none_iff.2 (path.segments_valid segment hsegment)
    unfold parse
    dsimp only
    split
    next fault hsome => simp [hfault] at hsome
    next =>
      obtain ⟨segments, hne, hvalid⟩ := path
      congr
      exact splitOn_text ⟨segments, hne, hvalid⟩

/-- Different paths have different texts, because segments have no dots. -/
theorem text_injective : Function.Injective text := by
  intro path path' h
  exact Except.ok.inj ((parse_eq_ok_iff.2 rfl).symm.trans (parse_eq_ok_iff.2 h))

/-- A segment is a path. -/
theorem exists_parse_segment (h : isSegment s = true) :
    ∃ path, parse s = .ok path ∧ path.segments = [s] :=
  ⟨⟨[s], List.cons_ne_nil s [], by simpa using h⟩, parse_eq_ok_iff.2 rfl, rfl⟩

theorem isSegmentChar_of_mem_text {path : FieldPath} (h : c ∈ path.text.toList) :
    c = '.' ∨ isSegmentChar c = true := by
  rcases Text.mem_intercalate h with h | ⟨segment, hsegment, h⟩
  · exact .inl (List.mem_singleton.1 h)
  · exact .inr ((isSegment_iff.1 (path.segments_valid segment hsegment)).2 c h)

theorem isBlank_of_mem_text {path : FieldPath} (h : c ∈ path.text.toList) : Text.isBlank c = false := by
  rcases isSegmentChar_of_mem_text h with rfl | h
  · decide
  · exact isBlank_of_isSegmentChar h

theorem text_ne_empty (path : FieldPath) : path.text ≠ "" := by
  intro h
  have hsegments := path.splitOn_text
  rw [h] at hsegments
  have hempty := path.segments_valid "" (hsegments ▸ List.mem_singleton_self "")
  exact absurd hempty (by decide)

end FieldPath

end RecordQuery
