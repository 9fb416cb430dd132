import RecordQuery.Document.Yaml.Token

/-!
# From tokens to documents

A document is read by descent into its collections. What is left out between two tokens is an empty
scalar. A list below a key of a block map may have no token of its own where its items begin. An
anchor names the value after it, for which its uses stand from there on.
-/

namespace RecordQuery.Yaml

/-- The tokens that are left, and the values that anchors have named, the latest first. -/
structure Rest where
  tokens : List Token
  anchors : List (String × Document)

/-- Where a value stands: in a block collection, below a key of one, or in a flow collection. -/
inductive Place where
  | block
  | belowKey
  | flow
deriving DecidableEq

/-- The document where nothing is written. -/
def blank : Document :=
  .plain ""

/-- Whether nothing is written after a dash. -/
def endsItem : List Token → Bool
  | .dash :: _ | .blockEnd :: _ => true
  | _ => false

/-- Whether nothing is written after a dash below a key. -/
def endsBareItem : List Token → Bool
  | .dash :: _ | .key :: _ | .colon :: _ | .blockEnd :: _ => true
  | _ => false

/-- Whether nothing is written after the mark of a key, or after a colon. -/
def endsPart : List Token → Bool
  | .key :: _ | .colon :: _ | .blockEnd :: _ => true
  | _ => false

/-- Whether nothing is written after the mark of a key in a flow collection. -/
def endsFlowKey : List Token → Bool
  | .colon :: _ | .comma :: _ | .rightBracket :: _ | .rightBrace :: _ => true
  | _ => false

/-- Whether nothing is written after a colon in a flow collection. -/
def endsFlowValue : List Token → Bool
  | .comma :: _ | .rightBracket :: _ | .rightBrace :: _ => true
  | _ => false

/-- The tokens after the comma that stands before every item of a flow collection but the first. -/
def afterComma? (isFirst : Bool) (tokens : List Token) : Option (List Token) :=
  match isFirst, tokens with
  | true, tokens => some tokens
  | false, .comma :: tokens => some tokens
  | false, _ => none

/-- The anchor and the tag at the start, of which each may be missing: the name of the anchor,
whether one of them is there, and the tokens after them. -/
def takeProperties : List Token → Option String × Bool × List Token
  | .anchor name :: .tag :: tokens | .tag :: .anchor name :: tokens => (some name, true, tokens)
  | .anchor name :: tokens => (some name, true, tokens)
  | .tag :: tokens => (none, true, tokens)
  | tokens => (none, false, tokens)

mutual

def readValue? (fuel : Nat) (place : Place) (rest : Rest) : Option (Document × Rest) :=
  match fuel, rest.tokens with
  | 0, _ => none
  | _, .alias name :: tokens => (rest.anchors.lookup name).map (·, { rest with tokens })
  | fuel + 1, _ =>
    let (anchor?, hasProperty, tokens) := takeProperties rest.tokens
    (readContent? fuel place hasProperty { rest with tokens }).map fun (d, rest) ↦
      (d, { rest with anchors := anchor?.toList.map (·, d) ++ rest.anchors })

/-- Reads a value after its anchor and its tag; if it has one of them, nothing need follow. -/
def readContent? (fuel : Nat) (place : Place) (mayBeBlank : Bool) (rest : Rest) :
    Option (Document × Rest) :=
  match fuel with
  | 0 => none
  | fuel + 1 =>
    let list := Option.map fun (items, rest) ↦ (Document.list items, rest)
    let map := Option.map fun (pairs, rest) ↦
      (Document.map (pairs.map fun (key, d) ↦ (key.text? .yaml, d)), rest)
    match rest.tokens, place with
    | .scalar d :: tokens, _ => some (d, { rest with tokens })
    | .leftBracket :: tokens, _ => list (readFlowItems? fuel true { rest with tokens })
    | .leftBrace :: tokens, _ => map (readFlowPairs? fuel true { rest with tokens })
    | .listStart :: tokens, .block | .listStart :: tokens, .belowKey =>
      list (readItems? fuel { rest with tokens })
    | .mapStart :: tokens, .block | .mapStart :: tokens, .belowKey =>
      map (readPairs? fuel { rest with tokens })
    | .dash :: _, .belowKey => list (readBareItems? fuel rest)
    | _, _ => if mayBeBlank then some (blank, rest) else none

/-- Reads a value, unless nothing is written. -/
def readPart? (fuel : Nat) (place : Place) (ends : List Token → Bool) (rest : Rest) :
    Option (Document × Rest) :=
  match fuel with
  | 0 => none
  | fuel + 1 => if ends rest.tokens then some (blank, rest) else readValue? fuel place rest

def readItems? (fuel : Nat) (rest : Rest) : Option (List Document × Rest) :=
  match fuel, rest.tokens with
  | fuel + 1, .dash :: tokens => do
    let (item, rest) ← readPart? fuel .block endsItem { rest with tokens }
    let (items, rest) ← readItems? fuel rest
    return (item :: items, rest)
  | _, .blockEnd :: tokens => some ([], { rest with tokens })
  | _, _ => none

/-- Reads the items of a list below a key that is not indented. -/
def readBareItems? (fuel : Nat) (rest : Rest) : Option (List Document × Rest) :=
  match fuel, rest.tokens with
  | fuel + 1, .dash :: tokens => do
    let (item, rest) ← readPart? fuel .block endsBareItem { rest with tokens }
    let (items, rest) ← readBareItems? fuel rest
    return (item :: items, rest)
  | 0, _ => none
  | _, _ => some ([], rest)

def readPairs? (fuel : Nat) (rest : Rest) : Option (List (Document × Document) × Rest) :=
  match fuel, rest.tokens with
  | fuel + 1, .key :: tokens => do
    let (key, rest) ← readPart? fuel .belowKey endsPart { rest with tokens }
    let (value, rest) ←
      match rest.tokens with
      | .colon :: tokens => readPart? fuel .belowKey endsPart { rest with tokens }
      | _ => some (blank, rest)
    let (pairs, rest) ← readPairs? fuel rest
    return ((key, value) :: pairs, rest)
  | _, .blockEnd :: tokens => some ([], { rest with tokens })
  | _, _ => none

/-- Reads a pair of a flow collection after the mark of its key. -/
def readFlowPair? (fuel : Nat) (rest : Rest) : Option ((Document × Document) × Rest) :=
  match fuel with
  | 0 => none
  | fuel + 1 => do
    let (key, rest) ← readPart? fuel .flow endsFlowKey rest
    let (value, rest) ←
      match rest.tokens with
      | .colon :: tokens => readPart? fuel .flow endsFlowValue { rest with tokens }
      | _ => some (blank, rest)
    return ((key, value), rest)

/-- Reads the items of a flow list, of which one may be a map of a single pair. -/
def readFlowItems? (fuel : Nat) (isFirst : Bool) (rest : Rest) : Option (List Document × Rest) :=
  match fuel, rest.tokens with
  | 0, _ => none
  | _, .rightBracket :: tokens => some ([], { rest with tokens })
  | fuel + 1, tokens => do
    let tokens ← afterComma? isFirst tokens
    match tokens with
    | .rightBracket :: tokens => return ([], { rest with tokens })
    | .key :: tokens =>
      let ((key, value), rest) ← readFlowPair? fuel { rest with tokens }
      let (items, rest) ← readFlowItems? fuel false rest
      return (.map [(key.text? .yaml, value)] :: items, rest)
    | _ =>
      let (item, rest) ← readValue? fuel .flow { rest with tokens }
      let (items, rest) ← readFlowItems? fuel false rest
      return (item :: items, rest)

/-- Reads the pairs of a flow map, of which one may be a key alone. -/
def readFlowPairs? (fuel : Nat) (isFirst : Bool) (rest : Rest) :
    Option (List (Document × Document) × Rest) :=
  match fuel, rest.tokens with
  | 0, _ => none
  | _, .rightBrace :: tokens => some ([], { rest with tokens })
  | fuel + 1, tokens => do
    let tokens ← afterComma? isFirst tokens
    match tokens with
    | .rightBrace :: tokens => return ([], { rest with tokens })
    | .key :: tokens =>
      let (pair, rest) ← readFlowPair? fuel { rest with tokens }
      let (pairs, rest) ← readFlowPairs? fuel false rest
      return (pair :: pairs, rest)
    | _ =>
      let (key, rest) ← readValue? fuel .flow { rest with tokens }
      let (pairs, rest) ← readFlowPairs? fuel false rest
      return ((key, blank) :: pairs, rest)

end

/-- Whether the tokens left after a mark hold no value for it. -/
def endsDocument : List Token → Bool
  | [] | .directive :: _ | .documentStart :: _ | .documentEnd :: _ => true
  | _ => false

/-- Whether tokens only end a document. -/
def isEnd : List Token → Bool
  | [] => true
  | .documentEnd :: tokens => isEnd tokens
  | _ => false

/-- The one document that tokens form. Every value, item and pair takes a token, and no more than
three calls are between two of them. -/
def ofTokens? (tokens : List Token) : Option Document :=
  let fuel := 4 * tokens.length + 4
  let content? :=
    match tokens with
    | [] => none
    | .documentStart :: tokens | .directive :: .documentStart :: tokens =>
      readPart? fuel .block endsDocument ⟨tokens, []⟩
    | _ => readValue? fuel .block ⟨tokens, []⟩
  content?.bind fun (d, rest) ↦ if isEnd rest.tokens then some d else none

end RecordQuery.Yaml
