import RecordQuery.Order.Basic
import RecordQuery.Proofs.FieldPath

/-!
# The signature of an order

The segments of a path hold neither dots nor any of the characters by which signatures are put
together, so that an order can be read off its signature.
-/

namespace RecordQuery

/-- Whether a character is one of those that stand between the parts of a signature. -/
def separates (c : Char) : Bool :=
  c == '.' || c == ':' || c == '|' || c == '\x00'

theorem separates_of_isSegmentChar {c : Char} (h : isSegmentChar c = true) : separates c = false := by
  rw [Bool.eq_false_iff]
  intro hc
  simp only [separates, Bool.or_eq_true, beq_iff_eq] at hc
  rcases hc with ((rfl | rfl) | rfl) | rfl <;> exact absurd h (by decide)

namespace FieldPath

theorem not_mem_text {path : FieldPath} {c : Char} (hc : separates c = true) (hdot : c ≠ '.') :
    c ∉ path.text.toList := by
  intro h
  rcases isSegmentChar_of_mem_text h with rfl | hsegment
  · exact hdot rfl
  · rw [separates_of_isSegmentChar hsegment] at hc
    cases hc

end FieldPath

theorem Direction.text_injective : Function.Injective Direction.text := by
  intro direction direction' h
  cases direction <;> cases direction' <;> first | rfl | exact absurd h (by decide)

namespace OrderKey

theorem toList_signature (key : OrderKey) :
    key.signature.toList = key.path.text.toList ++ ':' :: key.direction.text.toList := by
  rw [signature, String.toList_append, String.toList_append, List.append_assoc]
  rfl

/-- No path and no direction holds a colon, so the signature of a key determines both. -/
theorem signature_injective : Function.Injective signature := by
  intro key key' h
  have hcolon (direction : Direction) : ':' ∉ direction.text.toList := by
    cases direction <;> decide
  have hchars := congrArg String.toList h
  rw [toList_signature, toList_signature] at hchars
  obtain ⟨hpath, hdirection⟩ := Text.append_cons_inj (hcolon _) (hcolon _) hchars
  obtain ⟨path, direction⟩ := key
  obtain ⟨path', direction'⟩ := key'
  obtain rfl : path = path' := FieldPath.text_injective (String.toList_inj.1 hpath)
  obtain rfl : direction = direction' := Direction.text_injective (String.toList_inj.1 hdirection)
  rfl

theorem signature_ne_empty (key : OrderKey) : key.signature ≠ "" := by
  intro h
  have hchars := key.toList_signature
  simp [h] at hchars

theorem not_mem_signature {c : Char} (hc : c = '|' ∨ c = '\x00') (key : OrderKey) :
    c ∉ key.signature.toList := by
  rw [toList_signature, List.mem_append, List.mem_cons]
  rintro (h | rfl | h)
  · rcases hc with rfl | rfl <;> exact FieldPath.not_mem_text rfl (by decide) h
  · simp at hc
  · rcases hc with rfl | rfl <;> cases hdirection : key.direction <;> rw [hdirection] at h <;>
      exact absurd h (by decide)

end OrderKey

namespace Order

theorem not_mem_piece {keys : List OrderKey} {piece : String}
    (h : piece ∈ keys.map OrderKey.signature) : '|' ∉ piece.toList := by
  obtain ⟨key, -, rfl⟩ := List.mem_map.1 h
  exact key.not_mem_signature (.inl rfl)

theorem signature_ne_empty {order : Order} (h : order.keys ≠ []) : order.signature ≠ "" := by
  -- the empty text joins one piece, which is empty
  intro hempty
  have hone : order.keys.map OrderKey.signature = [""] :=
    Text.intercalate_inj (fun _ ↦ not_mem_piece) (by simp) (by simpa using h) (by simp)
      (hempty : "|".intercalate _ = "|".intercalate [""])
  obtain ⟨key, hkeys, hkey⟩ := List.map_eq_singleton_iff.1 hone
  exact key.signature_ne_empty hkey

/-- An order is determined by its signature. -/
theorem signature_injective : Function.Injective signature := by
  intro order order' h
  have hkeys : order.keys = order'.keys := by
    by_cases hnil : order.keys = [] <;> by_cases hnil' : order'.keys = []
    · rw [hnil, hnil']
    · have hempty : order.signature = "" := by rw [signature, hnil]; rfl
      exact absurd (h ▸ hempty) (signature_ne_empty hnil')
    · have hempty : order'.signature = "" := by rw [signature, hnil']; rfl
      exact absurd (h.trans hempty) (signature_ne_empty hnil)
    · have hpieces := Text.intercalate_inj (fun _ ↦ not_mem_piece) (fun _ ↦ not_mem_piece)
        (by simpa using hnil) (by simpa using hnil') h
      exact (List.map_inj_right fun _ _ ↦ @OrderKey.signature_injective _ _).1 hpieces
  obtain ⟨keys, hnodup⟩ := order
  obtain rfl : keys = order'.keys := hkeys
  rfl

/-- The signature of an order holds no zero. -/
theorem zero_not_mem_signature (order : Order) : '\x00' ∉ order.signature.toList := by
  intro h
  rcases Text.mem_intercalate h with h | ⟨signature, hsignature, h⟩
  · exact absurd h (by decide)
  · obtain ⟨key, -, rfl⟩ := List.mem_map.1 hsignature
    exact key.not_mem_signature (.inr rfl) h

end Order

end RecordQuery
