import RecordQuery.Floating.Numeral
import RecordQuery.Filter.Token

/-!
# Syntax of filters

A filter is empty or an expression. The tree has one level per rule of the grammar: an expression is
a list of sequences joined by `AND`, a sequence a list of adjacent factors, a factor a list of terms
joined by `OR`, and a term a restriction or a group in parentheses, possibly negated.
-/

namespace RecordQuery

namespace Filter

inductive Literal where
  /-- A quoted text, which never names a field. -/
  | text (s : String)
  | integer (n : Int64)
  | float (x : Double)
deriving DecidableEq

/-- One side of a comparison: a dotted word, split into its segments, or a literal. -/
inductive Comparable where
  | member (segments : List String)
  | literal (l : Literal)
deriving DecidableEq

/-- One condition. Without a comparator it is a search for the text of its comparable. -/
structure Restriction where
  subject : Comparable
  test? : Option (Operator × Comparable)
deriving DecidableEq

/-- A restriction or a group, possibly negated. -/
inductive Term where
  | restriction (negated : Bool) (r : Restriction)
  | group (negated : Bool) (sequences : List (List (List Term)))
deriving BEq

/-- Terms joined by `OR`. -/
abbrev Factor := List Term

/-- Adjacent factors, all of which have to hold. -/
abbrev Sequence := List Factor

/-- Sequences joined by `AND`. -/
abbrev Expression := List Sequence

/-- The text of a literal as written in a filter. Inside a quoted text, quotes, backslashes, line
feeds and tabs are escaped. -/
def Literal.chars : Literal → List Char
  | text s => '"' :: s.toList.flatMap escape ++ ['"']
  | integer n => (toString n.toInt).toList
  | float x => (x.text .explicit).toList
where
  /-- One character of a quoted text. -/
  escape (c : Char) : List Char :=
    if c == '"' || c == '\\' then ['\\', c]
    else if c == '\n' then ['\\', 'n']
    else if c == '\t' then ['\\', 't']
    else [c]

/-- The text that a restriction without a comparator searches for. -/
def Comparable.searchedText : Comparable → String
  | member segments => ".".intercalate segments
  | literal (.text s) => s
  | literal l => String.ofList l.chars

end Filter

/-- A parsed filter. The empty filter matches every record. -/
structure Filter where
  expression? : Option Filter.Expression
deriving BEq

def Filter.isEmpty (f : Filter) : Bool :=
  f.expression?.isNone

end RecordQuery
