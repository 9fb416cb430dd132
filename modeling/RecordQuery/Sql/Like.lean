/-!
# Literals in LIKE patterns

A text is made into a `LIKE` pattern for itself by putting a backslash before every backslash, then
before every percent sign, and then before every underscore. The backslashes have to come first, or
those put before the wildcards would be escaped themselves.
-/

namespace RecordQuery.Sql

/-- A text with a backslash before every occurrence of a character. -/
def escapeEvery (mark : Char) (s : String) : String :=
  String.ofList (s.toList.flatMap fun c ↦ if c = mark then ['\\', c] else [c])

/-- The pattern that matches exactly the given text. -/
def escapeLike (s : String) : String :=
  escapeEvery '_' (escapeEvery '%' (escapeEvery '\\' s))

end RecordQuery.Sql
