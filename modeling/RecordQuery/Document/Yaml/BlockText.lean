import RecordQuery.Document.Yaml.Character

/-!
# Text in blocks of lines

A block scalar holds the lines that are indented as deep as its first line that is not empty. Its
line breaks are kept, or folded like those of other scalars except around lines that begin with a
blank. A header says which, what becomes of the breaks at the end, and how deep the block is
indented if its first line begins with a blank.
-/

namespace RecordQuery.Yaml

/-- What becomes of the line breaks at the end of a block: all are dropped, the first is kept, or
all are kept. -/
inductive Chomping where
  | strip
  | clip
  | keep
deriving DecidableEq

/-- Takes the sign for what becomes of the line breaks from the start of a header. -/
def takeChomping : List Char → Option Chomping × List Char
  | '+' :: cs => (some .keep, cs)
  | '-' :: cs => (some .strip, cs)
  | cs => (none, cs)

/-- Takes the digit for the depth of the block from the start of a header. -/
def takeDepth : List Char → Option Nat × List Char
  | [] => (none, [])
  | c :: cs => if '1' ≤ c ∧ c ≤ '9' then (some (c.toNat - 48), cs) else (none, c :: cs)

/-- Reads a header: the sign and the digit in any order, each of which may be missing, and perhaps a
comment. -/
def readHeader? (cs : List Char) : Option (Chomping × Option Nat) :=
  let (before?, cs) := takeChomping cs
  let (depth?, cs) := takeDepth cs
  let (after?, cs) := if before?.isNone then takeChomping cs else (none, cs)
  match cs.dropWhile isBlank with
  | [] | '#' :: _ => some ((before?.or after?).getD .clip, depth?)
  | _ => none

/-- The part of a block that has been read. Until its depth is known, `deepest` is the depth of the
deepest line, all of which are empty, and `least` the depth it has at least. The breaks after the
last line that is not empty are held apart, the latest first. -/
structure BlockText where
  folds : Bool
  chomping : Chomping
  least : Nat
  depth? : Option Nat
  deepest : Nat
  read : List Char
  break? : Option Char
  breaks : List Char
  beginsBlank : Bool
  inLine : Bool

namespace BlockText

/-- A block with the given header inside a collection indented by `outer?`. -/
def ofHeader? (folds : Bool) (outer? : Option Nat) (header : List Char) : Option BlockText :=
  (readHeader? header).map fun (chomping, depth?) ↦
    { folds, chomping,
      least := outer?.elim 1 (· + 1),
      depth? := depth?.map (outer?.getD 0 + ·),
      deepest := 0, read := [], break? := none, breaks := [], beginsBlank := false,
      inLine := false }

/-- Whether a character in a column is still before the content of a line. -/
def isBefore (block : BlockText) (column : Nat) : Bool :=
  block.depth?.all (column < ·)

/-- A line that is empty ends. -/
def addBreak (block : BlockText) (column : Nat) (c : Char) : BlockText :=
  { block with deepest := max block.deepest column, breaks := c :: block.breaks }

/-- The depth of the block is known when a line that is not empty begins. -/
def settle (block : BlockText) (column : Nat) : BlockText :=
  { block with depth? := some (block.depth?.getD (max block.least (max block.deepest column))) }

def beginLine (block : BlockText) (c : Char) : BlockText :=
  let joins := block.folds && block.break? == some '\n' && !block.beginsBlank && !isBlank c
  let before :=
    if !joins then block.breaks ++ block.break?.toList
    else if block.breaks.isEmpty then [' ']
    else block.breaks
  { block with
    read := c :: (before ++ block.read), break? := none, breaks := [], beginsBlank := isBlank c,
    inLine := true }

def add (block : BlockText) (c : Char) : BlockText :=
  { block with read := c :: block.read }

def endLine (block : BlockText) (c : Char) : BlockText :=
  { block with break? := some c, inLine := false }

def text (block : BlockText) : String :=
  let after :=
    match block.chomping with
    | .strip => []
    | .clip => block.break?.toList
    | .keep => block.breaks ++ block.break?.toList
  String.ofList (after ++ block.read).reverse

end BlockText

end RecordQuery.Yaml
