import RecordQuery.Filter.Evaluate
import RecordQuery.Filter.Parser
import RecordQuery.Filter.Printer

/-!
# Compiled filters

A filter is compiled for a record type by evaluating it on the default record, which brings up
unknown fields and comparisons without meaning. A compiled filter accepts or refuses every record.
-/

namespace RecordQuery

/-- A filter that can be evaluated on the default record of a type. -/
structure Predicate {ι : Type} [DecidableEq ι] (R : Registry ι) (t : ι) where
  filter : Filter
  compiles : ∃ b, filter.evaluate R t (R.default t) = .ok b

variable {ι : Type} [DecidableEq ι] {R : Registry ι} {t : ι}

/-- Compiles a filter for a record type. -/
def Filter.compile (R : Registry ι) (t : ι) (f : Filter) : Except Error (Predicate R t) :=
  match h : f.evaluate R t (R.default t) with
  | .ok b => .ok ⟨f, b, h⟩
  | .error e => .error e

namespace Predicate

def parse (R : Registry ι) (t : ι) (s : String) : Except Error (Predicate R t) :=
  (Filter.parse s).bind (Filter.compile R t)

/-- Whether a record matches. -/
def accepts (p : Predicate R t) (r : Record R t) : Bool :=
  p.filter.holds R t r.fields

/-- The records that match, in the given order. -/
def select (p : Predicate R t) (records : List (Record R t)) : List (Record R t) :=
  records.filter p.accepts

def count (p : Predicate R t) (records : List (Record R t)) : Nat :=
  records.countP p.accepts

def find? (p : Predicate R t) (records : List (Record R t)) : Option (Record R t) :=
  records.find? p.accepts

/-- The text that shows what the filter is. -/
def debugText (p : Predicate R t) : String :=
  "Predicate \x7b filter: " ++ Text.quoted p.filter.text ++ " \x7d"

end Predicate

end RecordQuery
