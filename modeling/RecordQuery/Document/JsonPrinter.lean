import RecordQuery.Document.Basic

/-!
# Writing JSON

A document is written on one line without blanks, or with one item a line and two blanks for each
level of nesting.
-/

namespace RecordQuery.Json

/-- One character of a text. -/
def escapeChar (c : Char) : List Char :=
  if c == '"' || c == '\\' then ['\\', c]
  else if c == '\x08' then ['\\', 'b']
  else if c == '\x0c' then ['\\', 'f']
  else if c == '\n' then ['\\', 'n']
  else if c == '\r' then ['\\', 'r']
  else if c == '\t' then ['\\', 't']
  else if c.toNat < 16 then ['\\', 'u', '0', '0', '0'] ++ Nat.toDigits 16 c.toNat
  else if c.toNat < 32 then ['\\', 'u', '0', '0'] ++ Nat.toDigits 16 c.toNat
  else [c]

def quote (s : String) : String :=
  String.ofList (['"'] ++ s.toList.flatMap escapeChar ++ ['"'])

mutual

/-- A document on one line. -/
def compact : Document → String
  | .plain s => s
  | .quoted s? => quote (s?.getD "")
  | .list items => "[" ++ ",".intercalate (compactItems items) ++ "]"
  | .map pairs => "\x7b" ++ ",".intercalate (compactPairs pairs) ++ "\x7d"

def compactItems : List Document → List String
  | [] => []
  | d :: ds => compact d :: compactItems ds

def compactPairs : List (Option String × Document) → List String
  | [] => []
  | (key?, d) :: pairs => (quote (key?.getD "") ++ ":" ++ compact d) :: compactPairs pairs

end

def newLine (level : Nat) : String :=
  String.ofList ('\n' :: List.replicate (2 * level) ' ')

/-- Parts between brackets, one a line; no parts leave the brackets alone. -/
def block (left right : String) (level : Nat) (parts : List String) : String :=
  if parts.isEmpty then left ++ right
  else
    left ++ newLine (level + 1) ++ ("," ++ newLine (level + 1)).intercalate parts ++
      newLine level ++ right

mutual

/-- A document that begins at a level of nesting. -/
def prettyAt (level : Nat) : Document → String
  | .plain s => s
  | .quoted s? => quote (s?.getD "")
  | .list items => block "[" "]" level (prettyItems (level + 1) items)
  | .map pairs => block "\x7b" "\x7d" level (prettyPairs (level + 1) pairs)

def prettyItems (level : Nat) : List Document → List String
  | [] => []
  | d :: ds => prettyAt level d :: prettyItems level ds

def prettyPairs (level : Nat) : List (Option String × Document) → List String
  | [] => []
  | (key?, d) :: pairs =>
    (quote (key?.getD "") ++ ": " ++ prettyAt level d) :: prettyPairs level pairs

end

/-- A document with one item a line. -/
def pretty (d : Document) : String :=
  prettyAt 0 d

end RecordQuery.Json
