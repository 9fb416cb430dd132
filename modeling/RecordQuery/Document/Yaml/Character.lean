/-!
# Characters of YAML

Which characters YAML text may hold, and which of them separate its words and its lines. Line
breaks are unified first, so that afterwards a line ends at a line feed or at one of the two
separators of lines and paragraphs.
-/

namespace RecordQuery.Yaml

/-- Whether a character may stand in a text. Control characters and two noncharacters may not. -/
def isAllowed (c : Char) : Bool :=
  c == '\t' || c == '\n' || c == '\r' || c == '\u0085' || (' ' ≤ c && c ≤ '~') ||
    ('\u00a0' ≤ c && c != '\ufffe' && c != '\uffff')

/-- The text with a line feed for every carriage return, for every carriage return that a line feed
follows, and for every next-line character. -/
def unifyBreaks : List Char → List Char
  | [] => []
  | '\r' :: '\n' :: cs => '\n' :: unifyBreaks cs
  | c :: cs => (if c == '\r' || c == '\u0085' then '\n' else c) :: unifyBreaks cs

/-- Whether a character separates words of a line. -/
def isBlank (c : Char) : Bool :=
  c == ' ' || c == '\t'

/-- Whether a character ends a line. -/
def isBreak (c : Char) : Bool :=
  c == '\n' || c == '\u2028' || c == '\u2029'

/-- Whether a word ends before the given text. -/
def endsWord : List Char → Bool
  | [] => true
  | c :: _ => isBlank c || isBreak c

/-- Whether a text begins with the mark of three given characters that begins or ends a document. -/
def isMark (c : Char) : List Char → Bool
  | c₁ :: c₂ :: c₃ :: cs => c₁ == c && c₂ == c && c₃ == c && endsWord cs
  | _ => false

end RecordQuery.Yaml
