import RecordQuery.Document.Basic

/-!
# Tokens of YAML

Block collections have no brackets: a token stands where their items begin to be indented, and one
where the indentation ends. A token stands before each key of a map, also where the text has no mark
for it.
-/

namespace RecordQuery.Yaml

inductive Token where
  | directive
  | documentStart
  | documentEnd
  | listStart
  | mapStart
  | blockEnd
  | leftBracket
  | rightBracket
  | leftBrace
  | rightBrace
  | dash
  | comma
  | key
  | colon
  | anchor (name : String)
  | alias (name : String)
  | tag
  | scalar (d : Document)

end RecordQuery.Yaml
