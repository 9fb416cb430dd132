import RecordQuery.Document.Yaml.Character

/-!
# Text over several lines

A plain or quoted scalar may go on over several lines. The blanks around a line break belong to the
layout and are dropped. A single line feed stands for a space; further breaks stand for themselves,
as do separators of lines and paragraphs.
-/

namespace RecordQuery.Yaml

/-- What stands between two words of a scalar, the latest character first: blanks on one line, or
line breaks and the blanks around them. An escaped line break is not part of the text. -/
inductive Gap where
  | blanks (cs : List Char)
  | breaks (first? : Option Char) (more : List Char)

namespace Gap

def empty : Gap :=
  blanks []

def isEmpty : Gap → Bool
  | blanks cs => cs.isEmpty
  | breaks .. => false

/-- Whether a line ends in a gap. -/
def isBroken : Gap → Bool
  | blanks _ => false
  | breaks .. => true

def addBlank (c : Char) : Gap → Gap
  | blanks cs => blanks (c :: cs)
  | gap => gap

def addBreak (c : Char) : Gap → Gap
  | blanks _ => breaks (some c) []
  | breaks first? more => breaks first? (c :: more)

/-- The characters that a gap stands for, the latest first. -/
def meaning : Gap → List Char
  | blanks cs => cs
  | breaks (some '\n') [] => [' ']
  | breaks (some '\n') more => more
  | breaks first? more => more ++ first?.toList

end Gap

/-- The part of a scalar that has been read, the latest character first, and the gap after it. -/
structure Folded where
  read : List Char
  gap : Gap

namespace Folded

def empty : Folded := ⟨[], .empty⟩

def addBlank (text : Folded) (c : Char) : Folded :=
  { text with gap := text.gap.addBlank c }

def addBreak (text : Folded) (c : Char) : Folded :=
  { text with gap := text.gap.addBreak c }

/-- The gap becomes part of the text. -/
def closeGap (text : Folded) : Folded :=
  ⟨text.gap.meaning ++ text.read, .empty⟩

def add (text : Folded) (c : Char) : Folded :=
  ⟨c :: text.closeGap.read, .empty⟩

/-- A line break that is not part of the text. -/
def escapeBreak (text : Folded) : Folded :=
  { text.closeGap with gap := .breaks none [] }

/-- The text that has been read, without the gap after it. -/
def text (text : Folded) : String :=
  String.ofList text.read.reverse

end Folded

end RecordQuery.Yaml
