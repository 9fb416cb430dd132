import RecordQuery.Order.Comparator

/-!
# Positions

A position in an ordered list is given by a record, which need not be in the list any more: after it
come the records that the order puts strictly behind that record.
-/

namespace RecordQuery

/-- A position in an order, given by a record, the cursor. -/
structure Position {ι : Type} [DecidableEq ι] (R : Registry ι) (t : ι) where
  cursor : Record R t
  comparator : Comparator R t

namespace Position

variable {ι : Type} [DecidableEq ι] {R : Registry ι} {t : ι}

/-- The position of a record in an order, which has to compile for the type. -/
def compile (cursor : Record R t) (order : Order) : Except Error (Position R t) :=
  (order.compile R t).map (⟨cursor, ·⟩)

/-- Whether a record comes strictly after the position. -/
def precedes (p : Position R t) (r : Record R t) : Bool :=
  p.comparator.less p.cursor r

/-- The text that shows a position, where `cursor` is the text that shows its record. -/
def debugText (p : Position R t) (cursor : String) : String :=
  "CursorFilter \x7b cursor: " ++ cursor ++ ", order: " ++ p.comparator.debugText ++ " \x7d"

end Position

end RecordQuery
