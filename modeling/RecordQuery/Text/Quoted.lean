import RecordQuery.Text.EscapeTable

/-!
# Quoted text in messages

How a text or a single character is shown inside a message: between quotes, with the quote and the
backslash escaped, short escapes for four control characters, and the number of every other
character that has no plain form.
-/

namespace RecordQuery.Text

/-- Whether a character is written by its number inside quoted text. -/
def needsEscape (c : Char) : Bool :=
  let n := c.toNat
  if n < 128 then n < 32 || n == 127
  else escapedRanges.any fun range ↦ range.1 ≤ n && n ≤ range.2

/-- One character of a text quoted by `quote`. -/
def escapeChar (quote c : Char) : List Char :=
  if c == quote || c == '\\' then ['\\', c]
  else if c == '\x00' then ['\\', '0']
  else if c == '\t' then ['\\', 't']
  else if c == '\n' then ['\\', 'n']
  else if c == '\r' then ['\\', 'r']
  else if needsEscape c then ['\\', 'u', '\x7b'] ++ Nat.toDigits 16 c.toNat ++ ['\x7d']
  else [c]

/-- A text between double quotes. -/
def quoted (s : String) : String :=
  String.ofList (['"'] ++ s.toList.flatMap (escapeChar '"') ++ ['"'])

/-- A character between single quotes. -/
def quotedChar (c : Char) : String :=
  String.ofList (['\''] ++ escapeChar '\'' c ++ ['\''])

end RecordQuery.Text
