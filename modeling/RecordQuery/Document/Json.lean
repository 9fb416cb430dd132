import RecordQuery.Document.Basic

/-!
# Reading JSON

JSON text is read one character at a time into tokens, and the tokens one at a time into a document.
The reader is strict: white space is blank, tab, line feed and carriage return; texts hold no
control characters; nothing but white space follows the document.
-/

namespace RecordQuery.Json

inductive Token where
  | leftBracket
  | rightBracket
  | leftBrace
  | rightBrace
  | comma
  | colon
  | scalar (d : Document)

/-- Where the reader is inside a token: between tokens, in a scalar without quotes, in a text, after
a backslash, or in the digits of a numbered escape. Characters of a text are held by their numbers,
the latest first. -/
inductive Scan where
  | between
  | plain (read : List Char)
  | text (read : List Nat)
  | escape (read : List Nat)
  | numbered (read : List Nat) (digits value : Nat)

/-- Whether a scalar without quotes is a number. -/
def isNumeral (cs : List Char) : Bool :=
  let unsigned :=
    match cs with
    | '-' :: rest => rest
    | _ => cs
  let whole := unsigned.takeWhile Char.isDigit
  let afterWhole := unsigned.dropWhile Char.isDigit
  let (fraction?, afterFraction) :=
    match afterWhole with
    | '.' :: rest => (some (rest.takeWhile Char.isDigit), rest.dropWhile Char.isDigit)
    | _ => (none, afterWhole)
  let exponentValid :=
    match afterFraction with
    | [] => true
    | mark :: rest =>
      let digits :=
        match rest with
        | '+' :: digits => digits
        | '-' :: digits => digits
        | _ => rest
      (mark == 'e' || mark == 'E') && !digits.isEmpty && digits.all Char.isDigit
  !whole.isEmpty && (whole.length == 1 || whole.head? != some '0') &&
    fraction?.all (!·.isEmpty) && exponentValid

/-- Whether a scalar without quotes is valid. -/
def isPlain (cs : List Char) : Bool :=
  isNumeral cs || ["true".toList, "false".toList, "null".toList].contains cs

/-- The integer written by a scalar without quotes, if it has neither a fraction nor an exponent. A
negative zero is no integer. -/
def integer? (written : String) : Option Int :=
  let cs := written.toList
  if isNumeral cs && cs.all (fun c ↦ c.isDigit || c == '-') && cs != ['-', '0'] then written.toInt?
  else none

/-- The text with the given character numbers, in which a high and a low surrogate form one
character. Other surrogates have no text. -/
def joinSurrogates : List Nat → Option (List Char)
  | [] => some []
  | n :: rest =>
    if 0xD800 ≤ n ∧ n < 0xDC00 then
      match rest with
      | low :: rest =>
        if 0xDC00 ≤ low ∧ low < 0xE000 then
          (joinSurrogates rest).map
            (Char.ofNat (0x10000 + (n - 0xD800) * 0x400 + (low - 0xDC00)) :: ·)
        else none
      | [] => none
    else if 0xDC00 ≤ n ∧ n < 0xE000 then none
    else (joinSurrogates rest).map (Char.ofNat n :: ·)

def hexDigit? (c : Char) : Option Nat :=
  if c.isDigit then some (c.toNat - 48)
  else if 'a' ≤ c ∧ c ≤ 'f' then some (c.toNat - 87)
  else if 'A' ≤ c ∧ c ≤ 'F' then some (c.toNat - 55)
  else none

/-- The character that a short escape stands for. -/
def shortEscape? (c : Char) : Option Nat :=
  if c == '"' || c == '\\' || c == '/' then some c.toNat
  else if c == 'b' then some 8
  else if c == 'f' then some 12
  else if c == 'n' then some 10
  else if c == 'r' then some 13
  else if c == 't' then some 9
  else none

/-- The token of a character that is a token of its own. -/
def mark? (c : Char) : Option Token :=
  if c == '[' then some .leftBracket
  else if c == ']' then some .rightBracket
  else if c == '{' then some .leftBrace
  else if c == '}' then some .rightBrace
  else if c == ',' then some .comma
  else if c == ':' then some .colon
  else none

def isSpace (c : Char) : Bool :=
  c == ' ' || c == '\t' || c == '\n' || c == '\r'

/-- The tokens read, the latest first, after a scalar without quotes ends. -/
def endPlain (tokens : List Token) (read : List Char) : Option (List Token) :=
  if isPlain read.reverse then
    some (.scalar (.plain (String.ofList read.reverse)) :: tokens)
  else none

def scanBetween (tokens : List Token) (c : Char) : Scan × List Token :=
  if isSpace c then (.between, tokens)
  else if c == '"' then (.text [], tokens)
  else
    match mark? c with
    | some token => (.between, token :: tokens)
    | none => (.plain [c], tokens)

/-- One character of JSON text. -/
def scanChar (scan : Scan) (tokens : List Token) (c : Char) : Option (Scan × List Token) :=
  match scan with
  | .between => some (scanBetween tokens c)
  | .plain read =>
    if isSpace c || c == '"' || (mark? c).isSome then
      (endPlain tokens read).map (scanBetween · c)
    else some (.plain (c :: read), tokens)
  | .text read =>
    if c == '"' then
      let text? := (joinSurrogates read.reverse).map String.ofList
      some (.between, .scalar (.quoted text?) :: tokens)
    else if c == '\\' then some (.escape read, tokens)
    else if c.toNat < 32 then none
    else some (.text (c.toNat :: read), tokens)
  | .escape read =>
    if c == 'u' then some (.numbered read 0 0, tokens)
    else (shortEscape? c).map fun n ↦ (.text (n :: read), tokens)
  | .numbered read digits value =>
    (hexDigit? c).map fun d ↦
      let value := 16 * value + d
      if digits = 3 then (.text (value :: read), tokens)
      else (.numbered read (digits + 1) value, tokens)

/-- The tokens of the rest of a text. -/
def scanFrom (scan : Scan) (tokens : List Token) : List Char → Option (List Token)
  | [] =>
    match scan with
    | .between => some tokens.reverse
    | .plain read => (endPlain tokens read).map List.reverse
    | _ => none
  | c :: cs => (scanChar scan tokens c).bind fun (scan, tokens) ↦ scanFrom scan tokens cs

/-- A list or a map that is not closed: what has been read of it, the latest first, and for a map
the key whose value is being read. -/
inductive Frame where
  | list (items : List Document)
  | map (pairs : List (Option String × Document)) (key? : Option String)

/-- What the reader expects next. -/
inductive Expecting where
  /-- A value. -/
  | value
  /-- A value, or the end of a list that has just begun. -/
  | valueOrEnd
  /-- A key of a map of which some pairs have been read. -/
  | key (pairs : List (Option String × Document))
  /-- A key, or the end of a map that has just begun. -/
  | keyOrEnd
  /-- The colon after a key. -/
  | colon (pairs : List (Option String × Document)) (key? : Option String)
  /-- A comma or the end of the innermost list or map. -/
  | next
  /-- Nothing: the document is complete. -/
  | nothing (d : Document)

/-- A value is complete. -/
def addValue (d : Document) : List Frame → List Frame × Expecting
  | [] => ([], .nothing d)
  | .list items :: frames => (.list (d :: items) :: frames, .next)
  | .map pairs key? :: frames => (.map ((key?, d) :: pairs) key? :: frames, .next)

/-- A token where a value begins. -/
def beginValue (frames : List Frame) : Token → Option (List Frame × Expecting)
  | .leftBracket => some (.list [] :: frames, .valueOrEnd)
  | .leftBrace => some (frames, .keyOrEnd)
  | .scalar d => some (addValue d frames)
  | _ => none

/-- A token where a key is. -/
def readKey (frames : List Frame) (pairs : List (Option String × Document)) :
    Token → Option (List Frame × Expecting)
  | .scalar (.quoted key?) => some (frames, .colon pairs key?)
  | _ => none

/-- One token of JSON text. -/
def step (frames : List Frame) (expecting : Expecting) (token : Token) :
    Option (List Frame × Expecting) :=
  match expecting, token, frames with
  | .valueOrEnd, .rightBracket, _ :: frames => some (addValue (.list []) frames)
  | .value, _, _ | .valueOrEnd, _, _ => beginValue frames token
  | .keyOrEnd, .rightBrace, _ => some (addValue (.map []) frames)
  | .keyOrEnd, _, _ => readKey frames [] token
  | .key pairs, _, _ => readKey frames pairs token
  | .colon pairs key?, .colon, _ => some (.map pairs key? :: frames, .value)
  | .next, .comma, .list _ :: _ => some (frames, .value)
  | .next, .comma, .map pairs _ :: frames => some (frames, .key pairs)
  | .next, .rightBracket, .list items :: frames => some (addValue (.list items.reverse) frames)
  | .next, .rightBrace, .map pairs _ :: frames => some (addValue (.map pairs.reverse) frames)
  | _, _, _ => none

/-- The document that tokens form. -/
def ofTokens (frames : List Frame) (expecting : Expecting) : List Token → Option Document
  | [] =>
    match expecting with
    | .nothing d => some d
    | _ => none
  | token :: tokens =>
    (step frames expecting token).bind fun (frames, expecting) ↦ ofTokens frames expecting tokens

def parse? (s : String) : Option Document :=
  (scanFrom .between [] s.toList).bind (ofTokens [] .value)

end RecordQuery.Json
