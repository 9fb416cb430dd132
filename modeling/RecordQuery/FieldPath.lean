import RecordQuery.Schema

/-!
# Field paths

A field path is a non-empty sequence of segments, written with dots between them. The faults that a
path can have, in itself or against a record type, are listed here too.
-/

namespace RecordQuery

/-- What is wrong with a path. -/
inductive PathFault where
  /-- The path has no segment at all. -/
  | emptyPath
  /-- Two dots follow each other, or a dot stands at an end. -/
  | emptySegment
  /-- A segment holds a character that no field name has. -/
  | invalidCharacter (c : Char)
  /-- The first of several segments names no field of the record. -/
  | unknownHead (name : String)
  /-- A segment names no field of the record type reached. -/
  | unknownField (name schema : String)
  /-- Segments follow the name of a map field. -/
  | belowMap (name : String)
  /-- Segments follow the name of a repeated field of scalars. -/
  | belowRepeatedScalar (name : String)
  /-- Segments follow the name of a scalar field. -/
  | belowScalar (name : String)
  /-- A sort key passes through or ends at a repeated field. -/
  | repeatedSortKey (name : String)
  /-- A sort key passes through or ends at a map. -/
  | mapSortKey (name : String)
deriving DecidableEq

/-- A non-empty sequence of field names. -/
structure FieldPath where
  segments : List String
  segments_ne_nil : segments ≠ []
  segments_valid : ∀ s ∈ segments, isSegment s = true
deriving DecidableEq

namespace FieldPath

/-- The segments joined by dots. -/
def text (path : FieldPath) : String :=
  ".".intercalate path.segments

/-- What keeps a text from being a segment. -/
def segmentFault? (segment : String) : Option PathFault :=
  if segment.toList.isEmpty then some .emptySegment
  else (segment.toList.find? fun c ↦ !isSegmentChar c).map .invalidCharacter

theorem isSegment_of_segmentFault? {s : String} (h : segmentFault? s = none) :
    isSegment s = true := by
  unfold segmentFault? at h
  split at h
  · simp at h
  · rename_i hs
    have hall := List.find?_eq_none.1 (Option.map_eq_none_iff.1 h)
    simp only [isSegment, Bool.and_eq_true, Bool.not_eq_true', List.all_eq_true]
    exact ⟨by simpa using hs, fun c hc ↦ by simpa using hall c hc⟩

/-- The path written as `s`, or the first fault of its segments. -/
def parse (s : String) : Except PathFault FieldPath :=
  let segments := Text.splitOn '.' s
  match h : segments.findSome? segmentFault? with
  | some fault => .error fault
  | none =>
    .ok ⟨segments, by simp [segments, Text.splitOn, Text.pieces_ne_nil],
      fun t ht ↦ isSegment_of_segmentFault? (List.findSome?_eq_none_iff.1 h t ht)⟩

end FieldPath

end RecordQuery
