import RecordQuery.Error
import RecordQuery.Filter.Lexer
import RecordQuery.Filter.Syntax

/-!
# From tokens to filters

The parser takes one token at a time. Its state holds the expressions whose parentheses are still
open, the expression being read, and what may come next; a token that cannot come next is refused at
once, so the position of an error is that of the first token with which no filter goes on.
-/

namespace RecordQuery.Filter

/-- An expression being read: its finished sequences, the finished factors of the current sequence
and the finished terms of the current factor, the latest first. -/
structure Level where
  sequences : List Sequence
  factors : List Factor
  terms : List Term

namespace Level

/-- An expression of which nothing has been read. -/
def empty : Level := ⟨[], [], []⟩

def addTerm (level : Level) (term : Term) : Level :=
  { level with terms := term :: level.terms }

def endFactor (level : Level) : Level :=
  { level with factors := level.terms.reverse :: level.factors, terms := [] }

def endSequence (level : Level) : Level :=
  let level := level.endFactor
  ⟨level.factors.reverse :: level.sequences, [], []⟩

/-- The expression that has been read. -/
def toExpression (level : Level) : Expression :=
  level.endSequence.sequences.reverse

end Level

/-- What the parser expects. -/
inductive Expecting where
  /-- A term. -/
  | term
  /-- A term after its negation. -/
  | negated
  /-- A comparator after its left side, or the end of a term that searches for it. -/
  | comparator (negated : Bool) (subject : Comparable)
  /-- The right side of a comparison. -/
  | argument (negated : Bool) (subject : Comparable) (op : Operator)
  /-- Whatever may follow a complete term. -/
  | next

/-- The state of the parser. Each expression around the current one comes with whether the group
being read in it is negated. -/
structure State where
  outer : List (Level × Bool)
  level : Level
  expecting : Expecting

/-- The literal written as a number: an integer if it has no point and fits 64 bits, otherwise the
nearest double. -/
def Literal.ofNumeral? (numeral : String) : Option Literal :=
  let (negative, digits) := Decimal.readSign numeral.toList
  let magnitude : Int := Decimal.value digits
  let n := if negative then -magnitude else magnitude
  if isDigits digits && IntegerType.int64.contains n then some (.integer (.ofInt n))
  else (Floating.ofText? .binary64 numeral).map .float

def Token.comparable : Token → Except Fault Comparable
  | word w => .ok (.member (Text.splitOn '.' w))
  | text t => .ok (.literal (.text t))
  | number n =>
    match Literal.ofNumeral? n with
    | some l => .ok (.literal l)
    | none => .error (.invalidNumber n)
  | token => .error (.notComparable token)

namespace State

def initial : State := ⟨[], .empty, .term⟩

def addTerm (state : State) (term : Term) : State :=
  { state with level := state.level.addTerm term, expecting := .next }

/-- A token where a term begins, after its negation if it has one. -/
def beginTerm (state : State) (negated : Bool) (token : Token) : Except Fault State :=
  match token with
  | .leftParen => .ok ⟨(state.level, negated) :: state.outer, .empty, .term⟩
  | _ => token.comparable.map fun c ↦ { state with expecting := .comparator negated c }

/-- A token where a term may begin with its negation. -/
def beginFactor (state : State) (token : Token) : Except Fault State :=
  match token with
  | .not | .minus => .ok { state with expecting := .negated }
  | _ => state.beginTerm false token

/-- The group being read is complete: it becomes a term of the expression around it. -/
def closeGroup? (state : State) : Option State :=
  match state.outer with
  | [] => none
  | (level, negated) :: outer =>
    some ⟨outer, level.addTerm (.group negated state.level.toExpression), .next⟩

/-- A token after a complete term. -/
def continueWith (state : State) (token : Token) : Except Fault State :=
  match token with
  | .or => .ok { state with expecting := .term }
  | .and => .ok { state with level := state.level.endSequence, expecting := .term }
  | .rightParen =>
    match state.closeGroup? with
    | some closed => .ok closed
    | none => .error (.trailing token)
  | .comparator _ => .error (if state.outer.isEmpty then .trailing token else .openGroup token)
  | _ => beginFactor { state with level := state.level.endFactor } token

/-- The state after one more token. -/
def step (state : State) (token : Token) : Except Fault State :=
  match state.expecting with
  | .term => state.beginFactor token
  | .negated => state.beginTerm true token
  | .comparator negated subject =>
    match token with
    | .comparator op => .ok { state with expecting := .argument negated subject op }
    | _ => (state.addTerm (.restriction negated ⟨subject, none⟩)).continueWith token
  | .argument negated subject op =>
    token.comparable.map fun c ↦ state.addTerm (.restriction negated ⟨subject, some (op, c)⟩)
  | .next => state.continueWith token

/-- The expression read when the text ends. -/
def finish (state : State) : Except Fault Expression :=
  let complete : Except Fault State :=
    match state.expecting with
    | .comparator negated subject => .ok (state.addTerm (.restriction negated ⟨subject, none⟩))
    | .next => .ok state
    | _ => .error .unexpectedEnd
  complete.bind fun state ↦
    if state.outer.isEmpty then .ok state.level.toExpression else .error (.openGroup none)

end State

/-- Reads lexemes to their end, which is at the given byte offset. -/
def parseFrom (finish : Nat) : State → List Lexeme → Except (Nat × Fault) Expression
  | state, [] => state.finish.mapError fun fault ↦ (finish, fault)
  | state, lexeme :: lexemes =>
    match state.step lexeme.token with
    | .ok next => parseFrom finish next lexemes
    | .error fault => .error (lexeme.offset, fault)

/-- The filter that lexemes form; no lexemes form the empty filter. -/
def ofLexemes (finish : Nat) (lexemes : List Lexeme) : Except (Nat × Fault) Filter :=
  match lexemes with
  | [] => .ok ⟨none⟩
  | _ => (parseFrom finish .initial lexemes).map fun expression ↦ ⟨some expression⟩

def parse (s : String) : Except Error Filter :=
  ((lex s).bind (ofLexemes (Text.byteLength s.toList))).mapError fun (position, fault) ↦
    .invalidFilter position fault

end RecordQuery.Filter
