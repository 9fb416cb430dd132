/-!
# Splitting and finding text

Text is cut at the characters that satisfy a predicate, and one text is looked for inside another.
Both work on lists of characters; the functions on `String` only convert.
-/

namespace RecordQuery.Text

/-- The pieces of a text between the characters that satisfy `p`; there is always at least one. -/
def pieces (p : Char → Bool) : List Char → List (List Char)
  | [] => [[]]
  | c :: cs =>
    if p c then [] :: pieces p cs
    else
      match pieces p cs with
      | [] => [[c]]
      | piece :: rest => (c :: piece) :: rest

theorem pieces_ne_nil (p : Char → Bool) (cs : List Char) : pieces p cs ≠ [] := by
  cases cs with
  | nil => simp [pieces]
  | cons c cs =>
    simp only [pieces]
    split
    · simp
    · split <;> simp

/-- The pieces of `s` between the occurrences of `separator`. -/
def splitOn (separator : Char) (s : String) : List String :=
  (pieces (· == separator) s.toList).map String.ofList

/-- Whether `needle` occurs in the text as consecutive characters. -/
def occursIn (needle : List Char) : List Char → Bool
  | [] => needle.isEmpty
  | c :: cs => needle.isPrefixOf (c :: cs) || occursIn needle cs

def contains (s needle : String) : Bool :=
  occursIn needle.toList s.toList

/-- Lexicographic order by code point, which is also the order of the UTF-8 bytes. -/
def compareChars : List Char → List Char → Ordering
  | [], [] => .eq
  | [], _ :: _ => .lt
  | _ :: _, [] => .gt
  | a :: as, b :: bs =>
    if a.toNat < b.toNat then .lt
    else if b.toNat < a.toNat then .gt
    else compareChars as bs

def compare (s t : String) : Ordering :=
  compareChars s.toList t.toList

end RecordQuery.Text
