import RecordQuery.Cursor.Position
import RecordQuery.Proofs.Cursor.Projection
import RecordQuery.Proofs.Outcome
import RecordQuery.Record.Edit
import RecordQuery.Sample.Library

/-!
# Positions given by projections

A page token carries a projection in place of the record that a page ended with. The position that the
projection gives is that of the record: the same records come after it, because the projection
compares with every record as the record itself does.
-/

namespace RecordQuery.Position

variable {ι : Type} [DecidableEq ι] {R : Registry ι} {t : ι}

/-- Every record can be projected to an order that compiles, and after its projection come the records
that come after it. -/
theorem exists_compile_project (hdefault : R.DefaultsAreZero) {order : Order} {c : Comparator R t}
    (hcompile : order.compile R t = .ok c) (r : Record R t) :
    ∃ projected position, r.project order = .ok projected ∧
      compile projected order = .ok position ∧
      (∀ x, position.precedes x = true ↔ c.less r x = true) ∧
      ∀ x, c.compare projected x = c.compare r x := by
  obtain rfl := Order.order_compile hcompile
  obtain ⟨projected, hproject, hkeys⟩ := c.exists_project hdefault r
  have hcompare : ∀ x, c.compare projected x = c.compare r x :=
    c.compare_eq_of_sortValue_eq hkeys
  refine ⟨projected, ⟨projected, c⟩, hproject, ?_, ?_, hcompare⟩
  · rw [compile, hcompile]
    rfl
  · intro x
    rw [precedes, Comparator.less, Comparator.less, hcompare]

section Example

open Sample

/-- Keys in single precision, below a record that may be unset, and several below one record. -/
private def byWeight : Order where
  keys :=
    [⟨⟨["weight"], by simp, by decide⟩, .desc⟩,
      ⟨⟨["author", "birth", "year"], by simp, by decide⟩, .asc⟩,
      ⟨⟨["publisher", "hq", "geo", "lat"], by simp, by decide⟩, .asc⟩,
      ⟨⟨["publisher", "hq", "geo", "lon"], by simp, by decide⟩, .asc⟩]
  nodup := by decide

/-- A book without an author whose weight is not a number and whose publisher sits at a negative
zero. -/
private def unweighed : Record library .book :=
  let assign (names : List String) (bits : Nat) (r : Record library .book) :=
    (r.assign names (.number (.float (.ofBits .binary64 bits)))).2
  assign ["publisher", "hq", "geo", "lat"] 0x8000000000000000
    (assign ["weight"] 0x7FF8000000000000 .default)

theorem exists_compile_project_unweighed : ∃ c projected position,
    byWeight.compile library .book = .ok c ∧ unweighed.project byWeight = .ok projected ∧
      compile projected byWeight = .ok position ∧
      ∀ x, position.precedes x = true ↔ c.less unweighed x = true := by
  obtain ⟨c, hcompile⟩ := Outcome.exists_eq_ok_of_isOk
    (x := byWeight.compile library .book) (by decide +kernel)
  obtain ⟨projected, position, hproject, hposition, hprecedes, -⟩ :=
    exists_compile_project library_defaultsAreZero hcompile unweighed
  exact ⟨c, projected, position, hcompile, hproject, hposition, hprecedes⟩

end Example

end RecordQuery.Position
