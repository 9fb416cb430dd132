import RecordQuery.Document.Json
import RecordQuery.Document.Yaml.BlockText
import RecordQuery.Document.Yaml.Folded
import RecordQuery.Document.Yaml.Token

/-!
# From YAML text to tokens

Text is read one character at a time. The lexer knows how deep the open block collections are
indented, and where a token may turn out to have been the begin of a key: a colon after it, on the
same line and not too far away, puts the token for a key before it.
-/

namespace RecordQuery.Yaml

/-- Where the lexer is inside a token: between tokens, in a comment, in characters that have been
read ahead, in a scalar, after a quote that ends a scalar or is written twice, after a backslash, in
the digits of a numbered escape, or in the header or the lines of a block. -/
inductive Scan where
  | between
  | comment
  | ahead (count : Nat)
  | plain (text : Folded)
  | single (text : Folded)
  | afterSingle (text : Folded)
  | double (text : Folded)
  | escape (text : Folded)
  | numbered (text : Folded) (digits value : Nat)
  | header (block : BlockText)
  | block (block : BlockText)

/-- A place where a key may have begun: the number of tokens before it, its line and column, and the
number of characters before it. Where a block map goes on, a key is required. -/
structure Candidate where
  position : Nat
  line : Nat
  column : Nat
  offset : Nat
  isRequired : Bool

/-- The state of the lexer: the tokens that have been read, the line, the column and the number of
characters before the next one, the columns of the open block collections from the inside out, the
candidates of the innermost flow collection and of those around it, and whether a key may begin. -/
structure Lexer where
  scan : Scan
  tokens : Array Token
  line : Nat
  column : Nat
  offset : Nat
  columns : List Nat
  candidate? : Option Candidate
  outer : List (Option Candidate)
  allowsKey : Bool

/-- The greatest number of characters between the begin of a key and its colon. -/
def keyLimit : Nat := 1024

/-- The character that a letter after a backslash stands for. -/
def shortEscape? (c : Char) : Option Char :=
  [('0', '\x00'), ('a', '\x07'), ('b', '\x08'), ('t', '\t'), ('\t', '\t'), ('n', '\n'),
    ('v', '\x0b'), ('f', '\x0c'), ('r', '\r'), ('e', '\x1b'), (' ', ' '), ('"', '"'), ('/', '/'),
    ('\\', '\\'), ('N', '\u0085'), ('_', '\u00a0'), ('L', '\u2028'), ('P', '\u2029')].lookup c

/-- The number of hexadecimal digits after a letter that follows a backslash. -/
def digitCount? (c : Char) : Option Nat :=
  [('x', 2), ('u', 4), ('U', 8)].lookup c

/-- The characters that no plain scalar begins with, unless what follows makes them a part of it. -/
def indicators : List Char :=
  ['-', '?', ':', ',', '[', ']', '{', '}', '#', '&', '*', '!', '|', '>', '\'', '"', '%', '@',
    '\x60']

/-- Whether a character may be part of the name of an anchor. -/
def inName (c : Char) : Bool :=
  c.isAlphanum || c == '_' || c == '-'

/-- Whether the name of an anchor may end before the given text. -/
def endsName (cs : List Char) : Bool :=
  endsWord cs || cs.head?.any ['?', ':', ',', ']', '}', '%', '@', '\x60'].contains

/-- Whether a character may be part of a tag. -/
def inTag (c : Char) : Bool :=
  inName c ||
    [';', '/', '?', ':', '@', '&', '=', '+', '$', '.', '!', '~', '*', '\'', '(', ')'].contains c

/-- Whether a text is what follows the exclamation mark of a tag: a name, a second mark and a name,
or any text between angle brackets. -/
def isTag (cs : List Char) : Bool :=
  match cs with
  | '<' :: rest =>
    match rest.reverse with
    | '>' :: name => !name.isEmpty && name.all fun c ↦ inTag c || [',', '[', ']'].contains c
    | _ => false
  | _ =>
    match cs.dropWhile inName with
    | '!' :: name => cs.head? == some '!' && !name.isEmpty && name.all inTag
    | rest => rest.all inTag

/-- Whether a line goes on with the directive that names one of the two versions that are read. -/
def isVersion (cs : List Char) : Bool :=
  let number := (cs.drop 4).dropWhile isBlank
  let major := number.takeWhile Char.isDigit
  let afterMajor := number.drop major.length
  let minor := afterMajor.tail.takeWhile Char.isDigit
  let rest := (afterMajor.tail.drop minor.length).dropWhile isBlank
  let hasValue (digits : List Char) (value : Nat) : Bool :=
    digits.length ≤ 9 && (String.ofList digits).toNat? == some value
  cs.take 4 == "YAML".toList && (cs.drop 4).head?.any isBlank && hasValue major 1 &&
    afterMajor.head? == some '.' && (hasValue minor 1 || hasValue minor 2) &&
    rest.head?.all (· == '#')

namespace Lexer

def initial : Lexer :=
  { scan := .between, tokens := #[], line := 0, column := 0, offset := 0, columns := [],
    candidate? := none, outer := [], allowsKey := true }

def inFlow (lexer : Lexer) : Bool :=
  !lexer.outer.isEmpty

def advance (lexer : Lexer) (scan : Scan) : Lexer :=
  { lexer with scan, column := lexer.column + 1, offset := lexer.offset + 1 }

def newLine (lexer : Lexer) (scan : Scan) : Lexer :=
  { lexer with scan, line := lexer.line + 1, column := 0, offset := lexer.offset + 1 }

def push (lexer : Lexer) (token : Token) : Lexer :=
  { lexer with tokens := lexer.tokens.push token }

/-- No key begins at the candidate of the innermost collection. -/
def dropCandidate? (lexer : Lexer) : Option Lexer :=
  if lexer.candidate?.any (·.isRequired) then none else some { lexer with candidate? := none }

/-- A key may begin here, if keys are allowed. -/
def addCandidate? (lexer : Lexer) : Option Lexer :=
  if lexer.allowsKey then
    lexer.dropCandidate?.map fun lexer ↦
      { lexer with
        candidate? := some
          { position := lexer.tokens.size, line := lexer.line, column := lexer.column,
            offset := lexer.offset,
            isRequired := !lexer.inFlow && lexer.columns.head? == some lexer.column } }
  else some lexer

/-- Whether a candidate is on another line or too far away. -/
def isLost (lexer : Lexer) (candidate : Candidate) : Bool :=
  candidate.line < lexer.line || candidate.offset + keyLimit < lexer.offset

/-- Candidates that are lost are given up. -/
def dropLost? (lexer : Lexer) : Option Lexer :=
  let isLost := Option.any lexer.isLost
  let candidates := lexer.candidate? :: lexer.outer
  if candidates.any fun candidate? ↦ isLost candidate? && candidate?.any (·.isRequired) then none
  else
    let keep (candidate? : Option Candidate) := if isLost candidate? then none else candidate?
    some { lexer with candidate? := keep lexer.candidate?, outer := lexer.outer.map keep }

/-- Block collections that are indented deeper than a column end; those in a flow collection end
with it. -/
def closeBlocks (lexer : Lexer) (isDeeper : Nat → Bool) : Lexer :=
  if lexer.inFlow then lexer
  else
    let closed := lexer.columns.takeWhile isDeeper
    { lexer with
      tokens := lexer.tokens ++ closed.map fun _ ↦ Token.blockEnd
      columns := lexer.columns.dropWhile isDeeper }

/-- A block collection begins in a column, unless one is open there; its token has the given number
of tokens before it. -/
def openBlock (lexer : Lexer) (column position : Nat) (token : Token) : Lexer :=
  if lexer.inFlow || lexer.columns.head?.any (column ≤ ·) then lexer
  else
    { lexer with
      tokens := lexer.tokens.insertIdxIfInBounds position token
      columns := column :: lexer.columns }

/-- The mark that begins or ends a document. -/
def mark? (lexer : Lexer) (token : Token) : Option Lexer :=
  (lexer.closeBlocks fun _ ↦ true).dropCandidate?.map fun lexer ↦
    { lexer.push token with allowsKey := false }.advance (.ahead 2)

/-- A directive, which takes the rest of the line. -/
def directive? (lexer : Lexer) (cs : List Char) : Option Lexer :=
  let line := cs.takeWhile fun c ↦ !isBreak c
  if isVersion line then
    (lexer.closeBlocks fun _ ↦ true).dropCandidate?.map fun lexer ↦
      { lexer.push .directive with allowsKey := false }.advance (.ahead line.length)
  else none

def openFlow? (lexer : Lexer) (token : Token) : Option Lexer :=
  lexer.addCandidate?.map fun lexer ↦
    { lexer.push token with
      candidate? := none, outer := lexer.candidate? :: lexer.outer, allowsKey := true }.advance
      .between

def closeFlow? (lexer : Lexer) (token : Token) : Option Lexer :=
  lexer.dropCandidate?.map fun lexer ↦
    { lexer.push token with
      candidate? := lexer.outer.head?.join, outer := lexer.outer.tail, allowsKey := false }.advance
      .between

/-- The comma after an item of a flow collection. -/
def comma? (lexer : Lexer) : Option Lexer :=
  lexer.dropCandidate?.map fun lexer ↦
    { lexer.push .comma with allowsKey := true }.advance .between

/-- The dash before an item of a block list. -/
def dash? (lexer : Lexer) : Option Lexer :=
  if !lexer.inFlow && !lexer.allowsKey then none
  else
    (lexer.openBlock lexer.column lexer.tokens.size .listStart).dropCandidate?.map fun lexer ↦
      { lexer.push .dash with allowsKey := true }.advance .between

/-- The mark before a key. -/
def key? (lexer : Lexer) : Option Lexer :=
  if !lexer.inFlow && !lexer.allowsKey then none
  else
    (lexer.openBlock lexer.column lexer.tokens.size .mapStart).dropCandidate?.map fun lexer ↦
      { lexer.push .key with allowsKey := !lexer.inFlow }.advance .between

/-- The colon after a key. If there is a candidate, the key began there. -/
def colon? (lexer : Lexer) : Option Lexer :=
  match lexer.candidate? with
  | some key =>
    let tokens := lexer.tokens.insertIdxIfInBounds key.position .key
    let lexer := { lexer with tokens, candidate? := none, allowsKey := false }
    some (((lexer.openBlock key.column key.position .mapStart).push .colon).advance .between)
  | none =>
    if !lexer.inFlow && !lexer.allowsKey then none
    else
      let lexer := { lexer with allowsKey := !lexer.inFlow }
      some (((lexer.openBlock lexer.column lexer.tokens.size .mapStart).push .colon).advance
        .between)

/-- A token that is read ahead and stands before a value, followed by the given number of
characters that belong to it. -/
def property? (lexer : Lexer) (token : Token) (count : Nat) : Option Lexer :=
  lexer.addCandidate?.map fun lexer ↦
    { lexer.push token with allowsKey := false }.advance (.ahead count)

def anchor? (lexer : Lexer) (token : String → Token) (cs : List Char) : Option Lexer :=
  let name := cs.takeWhile inName
  if name.isEmpty || !endsName (cs.drop name.length) then none
  else lexer.property? (token (String.ofList name)) name.length

/-- A tag. In a flow collection a comma may follow it. -/
def tag? (lexer : Lexer) (cs : List Char) : Option Lexer :=
  let tag := cs.takeWhile fun c ↦ !isBlank c && !isBreak c && !(lexer.inFlow && c == ',')
  if isTag tag then lexer.property? .tag tag.length else none

def beginScalar? (lexer : Lexer) (scan : Scan) : Option Lexer :=
  lexer.addCandidate?.map fun lexer ↦ { lexer with allowsKey := false }.advance scan

def beginBlock? (lexer : Lexer) (folds : Bool) (cs : List Char) : Option Lexer :=
  lexer.dropCandidate?.bind fun lexer ↦
    let header := cs.takeWhile fun c ↦ !isBreak c
    (BlockText.ofHeader? folds lexer.columns.head? header).map fun block ↦
      { lexer with allowsKey := true }.advance (.header block)

def endScalar (lexer : Lexer) (d : Document) : Lexer :=
  { lexer.push (.scalar d) with scan := .between }

/-- A plain scalar ends. After a line break a key may begin. -/
def endPlain (lexer : Lexer) (text : Folded) : Lexer :=
  { lexer with allowsKey := lexer.allowsKey || text.gap.isBroken }.endScalar (.plain text.text)

def endQuoted (lexer : Lexer) (text : Folded) : Lexer :=
  lexer.endScalar (.ofString text.closeGap.text)

/-- Whether a plain scalar begins with a character, when no other token does. -/
def beginsPlain (lexer : Lexer) (c : Char) : Bool :=
  if isBlank c then false
  else if c == '-' then true
  else if c == '?' || c == ':' then !lexer.inFlow
  else !indicators.contains c

/-- A token begins with a character that `cs` follows. -/
def beginToken? (lexer : Lexer) (c : Char) (cs : List Char) : Option Lexer :=
  let isMark (c' : Char) := lexer.column == 0 && isMark c' (c :: cs)
  if lexer.column == 0 && c == '%' then lexer.directive? cs
  else if isMark '-' then lexer.mark? .documentStart
  else if isMark '.' then lexer.mark? .documentEnd
  else if c == '[' then lexer.openFlow? .leftBracket
  else if c == '{' then lexer.openFlow? .leftBrace
  else if c == ']' then lexer.closeFlow? .rightBracket
  else if c == '}' then lexer.closeFlow? .rightBrace
  else if c == ',' then lexer.comma?
  else if c == '-' && endsWord cs then lexer.dash?
  else if c == '?' && (lexer.inFlow || endsWord cs) then lexer.key?
  else if c == ':' && (lexer.inFlow || endsWord cs) then lexer.colon?
  else if c == '*' then lexer.anchor? .alias cs
  else if c == '&' then lexer.anchor? .anchor cs
  else if c == '!' then lexer.tag? cs
  else if (c == '|' || c == '>') && !lexer.inFlow then lexer.beginBlock? (c == '>') cs
  else if c == '\'' then lexer.beginScalar? (.single .empty)
  else if c == '"' then lexer.beginScalar? (.double .empty)
  else if lexer.beginsPlain c then lexer.beginScalar? (.plain (Folded.empty.add c))
  else none

/-- A character between tokens. Where a key may begin outside flow collections, tabs may not stand
before it. -/
def between? (lexer : Lexer) (c : Char) (cs : List Char) : Option Lexer :=
  if c == '\ufeff' && lexer.offset = 0 then some (lexer.advance .between)
  else if c == ' ' || (c == '\t' && (lexer.inFlow || !lexer.allowsKey)) then
    some (lexer.advance .between)
  else if c == '#' then some (lexer.advance .comment)
  else if isBreak c then
    some ({ lexer with allowsKey := lexer.allowsKey || !lexer.inFlow }.newLine .between)
  else
    lexer.dropLost?.bind fun lexer ↦
      (lexer.closeBlocks (lexer.column < ·)).beginToken? c cs

/-- The column that the lines of a plain scalar reach at least. -/
def plainColumn (lexer : Lexer) : Nat :=
  if lexer.inFlow then 0 else lexer.columns.head?.elim 0 (· + 1)

/-- Whether a plain scalar ends before a character that is not blank. -/
def endsPlain (lexer : Lexer) (text : Folded) (c : Char) (cs : List Char) : Bool :=
  (lexer.column == 0 && (isMark '-' (c :: cs) || isMark '.' (c :: cs))) ||
    (!text.gap.isEmpty && (c == '#' || lexer.column < lexer.plainColumn)) ||
    (c == ':' && endsWord cs) || (lexer.inFlow && [',', '[', ']', '{', '}'].contains c)

/-- A character of a plain scalar, or after it. -/
def plain? (lexer : Lexer) (text : Folded) (c : Char) (cs : List Char) : Option Lexer :=
  if isBlank c then
    if c == '\t' && text.gap.isBroken && lexer.columns.head?.any (lexer.column ≤ ·) then none
    else some (lexer.advance (.plain (text.addBlank c)))
  else if isBreak c then some (lexer.newLine (.plain (text.addBreak c)))
  else if lexer.endsPlain text c cs then (lexer.endPlain text).between? c cs
  else if lexer.inFlow && c == ':' && cs.head?.any [',', '?', '[', ']', '{', '}'].contains then none
  else some (lexer.advance (.plain (text.add c)))

/-- A character of a quoted scalar; `part` is what it does if it separates neither words nor lines.
No document begins or ends inside. -/
def quoted? (lexer : Lexer) (scan : Folded → Scan) (text : Folded) (c : Char) (cs : List Char)
    (part? : Option Lexer) : Option Lexer :=
  if isBlank c then some (lexer.advance (scan (text.addBlank c)))
  else if isBreak c then some (lexer.newLine (scan (text.addBreak c)))
  else if lexer.column == 0 && (isMark '-' (c :: cs) || isMark '.' (c :: cs)) then none
  else part?

/-- A character after a backslash. -/
def escape? (lexer : Lexer) (text : Folded) (c : Char) : Option Lexer :=
  if isBreak c then some (lexer.newLine (.double text.escapeBreak))
  else
    match shortEscape? c, digitCount? c with
    | some meaning, _ => some (lexer.advance (.double (text.add meaning)))
    | none, some digits => some (lexer.advance (.numbered text digits 0))
    | none, none => none

/-- A digit of a numbered escape, of which `digits` are left. -/
def numbered? (lexer : Lexer) (text : Folded) (digits value : Nat) (c : Char) : Option Lexer :=
  (Json.hexDigit? c).bind fun digit ↦
    let value := 16 * value + digit
    if digits ≠ 1 then some (lexer.advance (.numbered text (digits - 1) value))
    else if value.isValidChar then some (lexer.advance (.double (text.add (Char.ofNat value))))
    else none

/-- A character of a block of lines, or after it. -/
def block? (lexer : Lexer) (block : BlockText) (c : Char) (cs : List Char) : Option Lexer :=
  if block.inLine then
    if isBreak c then some (lexer.newLine (.block (block.endLine c)))
    else some (lexer.advance (.block (block.add c)))
  else if isBlank c && block.isBefore lexer.column then
    if c == '\t' then none else some (lexer.advance (.block block))
  else if isBreak c then some (lexer.newLine (.block (block.addBreak lexer.column c)))
  else
    let block := block.settle lexer.column
    if block.depth? == some lexer.column then some (lexer.advance (.block (block.beginLine c)))
    else (lexer.endScalar (.ofString block.text)).between? c cs

/-- One character of YAML text, which `cs` follows. -/
def step? (lexer : Lexer) (c : Char) (cs : List Char) : Option Lexer :=
  match lexer.scan with
  | .between => lexer.between? c cs
  | .comment => if isBreak c then lexer.between? c cs else some (lexer.advance .comment)
  | .ahead count =>
    match count with
    | 0 => lexer.between? c cs
    | count + 1 => some (lexer.advance (.ahead count))
  | .plain text => lexer.plain? text c cs
  | .single text =>
    lexer.quoted? .single text c cs <|
      some (lexer.advance (if c == '\'' then .afterSingle text else .single (text.add c)))
  | .afterSingle text =>
    if c == '\'' then some (lexer.advance (.single (text.add c)))
    else (lexer.endQuoted text).between? c cs
  | .double text =>
    lexer.quoted? .double text c cs <|
      if c == '"' then some ((lexer.endQuoted text).advance .between)
      else some (lexer.advance (if c == '\\' then .escape text else .double (text.add c)))
  | .escape text => lexer.escape? text c
  | .numbered text digits value => lexer.numbered? text digits value c
  | .header block =>
    if isBreak c then some (lexer.newLine (.block block)) else some (lexer.advance (.header block))
  | .block block => lexer.block? block c cs

/-- The tokens when the text ends. -/
def finish? (lexer : Lexer) : Option (List Token) :=
  let complete? : Option Lexer :=
    match lexer.scan with
    | .between | .comment | .ahead 0 => some lexer
    | .plain text => some (lexer.endPlain text)
    | .afterSingle text => some (lexer.endQuoted text)
    | .header block | .block block => some (lexer.endScalar (.ofString block.text))
    | _ => none
  complete?.bind fun lexer ↦
    lexer.dropCandidate?.map fun lexer ↦ (lexer.closeBlocks fun _ ↦ true).tokens.toList

/-- The tokens of a text after those that have been read. -/
def readFrom? (lexer : Lexer) : List Char → Option (List Token)
  | [] => lexer.finish?
  | c :: cs => (lexer.step? c cs).bind (readFrom? · cs)

end Lexer

def tokens? (s : String) : Option (List Token) :=
  if s.toList.all isAllowed then Lexer.initial.readFrom? (unifyBreaks s.toList) else none

end RecordQuery.Yaml
