import RecordQuery.Text.CaseTable

/-!
# Lower case

Full lower-casing of a text. Two characters are special: the capital I with a dot above becomes two
characters, and a capital sigma becomes the final form where it ends a word.
-/

namespace RecordQuery.Text

/-- Whether a code point lies in one of the given inclusive ranges. -/
def inRanges (ranges : Array (Nat × Nat)) (n : Nat) : Bool :=
  ranges.any fun range ↦ range.1 ≤ n && n ≤ range.2

/-- The lower-case form of a character outside any context. -/
def lowerChar (c : Char) : List Char :=
  let n := c.toNat
  if n < 128 then [c.toLower]
  else if n == 0x130 then ['i', '\u0307']
  else
    match lowercaseRuns.find? (fun run ↦
        run.1 ≤ n && n ≤ run.2.1 && (n - run.1) % run.2.2.1 == 0) with
    | some run => [Char.ofNat (run.2.2.2 + (n - run.1))]
    | none => [c]

/-- Whether the first character that is not case-ignorable is a cased letter. -/
def startsCased (cs : List Char) : Bool :=
  match cs.dropWhile (fun c ↦ inRanges caseIgnorableRanges c.toNat) with
  | [] => false
  | c :: _ => inRanges casedRanges c.toNat

/-- Lower case of the rest of a text; `before` holds the characters read so far, nearest first. -/
def lowerFrom (before : List Char) : List Char → List Char
  | [] => []
  | c :: cs =>
    let lowered :=
      if c == 'Σ' then
        if startsCased before && !startsCased cs then ['ς'] else ['σ']
      else lowerChar c
    lowered ++ lowerFrom (c :: before) cs

/-- The lower-case form of a text. A capital sigma is final when a cased letter stands before it and
none after it, case-ignorable characters aside. -/
def lowercase (s : String) : String :=
  String.ofList (lowerFrom [] s.toList)

end RecordQuery.Text
