import RecordQuery.Filter.Syntax

/-!
# From filters to text

A filter is written as its tokens in order. Two neighbouring tokens are separated by one space, save
after an opening and before a closing parenthesis. Negation is written as a word.
-/

namespace RecordQuery.Filter

/-- A token as written in a filter. -/
def Token.chars : Token → List Char
  | word w => w.toList
  | text t => (Literal.text t).chars
  | number n => n.toList
  | and => ['A', 'N', 'D']
  | or => ['O', 'R']
  | not => ['N', 'O', 'T']
  | minus => ['-']
  | leftParen => ['(']
  | rightParen => [')']
  | comparator op => op.text.toList

def Comparable.token : Comparable → Token
  | member segments => .word (".".intercalate segments)
  | literal (.text s) => .text s
  | literal l => .number (String.ofList l.chars)

def Restriction.tokens (r : Restriction) : List Token :=
  r.subject.token ::
    match r.test? with
    | none => []
    | some (op, argument) => [.comparator op, argument.token]

/-- The token of a negation, if there is one. -/
def negation (negated : Bool) : List Token :=
  if negated then [.not] else []

mutual

def Term.tokens : Term → List Token
  | .restriction negated r => negation negated ++ r.tokens
  | .group negated sequences =>
    negation negated ++ .leftParen :: expressionTokens sequences ++ [.rightParen]

/-- The tokens of terms joined by `OR`. -/
def factorTokens : List Term → List Token
  | [] => []
  | [term] => term.tokens
  | term :: terms => term.tokens ++ .or :: factorTokens terms

/-- The tokens of adjacent factors. -/
def sequenceTokens : List (List Term) → List Token
  | [] => []
  | factor :: factors => factorTokens factor ++ sequenceTokens factors

/-- The tokens of sequences joined by `AND`. -/
def expressionTokens : List (List (List Term)) → List Token
  | [] => []
  | [sequence] => sequenceTokens sequence
  | sequence :: sequences => sequenceTokens sequence ++ .and :: expressionTokens sequences

end

def tokens (f : Filter) : List Token :=
  match f.expression? with
  | none => []
  | some expression => expressionTokens expression

/-- The space between two neighbouring tokens. -/
def gap (left right : Token) : List Char :=
  if left = .leftParen ∨ right = .rightParen then [] else [' ']

/-- The text of a list of tokens. -/
def layout : List Token → List Char
  | [] => []
  | [token] => token.chars
  | token :: next :: tokens => token.chars ++ gap token next ++ layout (next :: tokens)

def text (f : Filter) : String :=
  String.ofList (layout f.tokens)

end RecordQuery.Filter
