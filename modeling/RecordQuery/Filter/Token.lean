import RecordQuery.Operator
import RecordQuery.Text.Quoted

/-!
# Tokens of a filter

The tokens that filter text consists of, how messages name them, and what can be wrong with a filter
text.
-/

namespace RecordQuery.Filter

/-- A token of filter text. A word, a keyword and a number are held as written; of a quoted text
only the content is held. -/
inductive Token where
  | word (text : String)
  | text (content : String)
  | number (numeral : String)
  | and
  | or
  | not
  | minus
  | leftParen
  | rightParen
  | comparator (op : Operator)
deriving DecidableEq

/-- How a message names a token. -/
def Token.describe : Token → String
  | word w => Text.quoted w
  | text t => "string " ++ Text.quoted t
  | number n => "number " ++ n
  | and => "AND"
  | or => "OR"
  | not => "NOT"
  | minus => "'-'"
  | leftParen => "'('"
  | rightParen => "')'"
  | comparator op => "'" ++ op.text ++ "'"

/-- What is wrong with a filter text. -/
inductive Fault where
  /-- A quoted text is not closed. -/
  | openString
  /-- The text ends after a backslash inside a quoted text. -/
  | openEscape
  /-- An exclamation mark is not followed by an equals sign. -/
  | loneExclamation
  /-- A field or value is expected where another token stands. -/
  | notComparable (found : Token)
  /-- A field or value is expected where the text ends. -/
  | unexpectedEnd
  /-- A group is not closed before the given token, or before the end. -/
  | openGroup (found? : Option Token)
  /-- The filter is complete before the given token. -/
  | trailing (found : Token)
  /-- A number cannot be read. -/
  | invalidNumber (numeral : String)
deriving DecidableEq

def Fault.message : Fault → String
  | openString => "unterminated string literal"
  | openEscape => "unterminated escape sequence"
  | loneExclamation => "expected '=' after '!'"
  | notComparable found => "expected a field or value, found " ++ found.describe
  | unexpectedEnd => "unexpected end of filter"
  | openGroup (some found) => "expected ')', found " ++ found.describe
  | openGroup none => "expected ')', found end of filter"
  | trailing found => "unexpected " ++ found.describe
  | invalidNumber numeral => "invalid number " ++ numeral

end RecordQuery.Filter
