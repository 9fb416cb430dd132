import RecordQuery.Text.Split

/-!
# White space

The characters with the `White_Space` property, and the two operations that look at them: trimming a
text and cutting it into words.
-/

namespace RecordQuery.Text

/-- Whether a character has the `White_Space` property. -/
def isBlank (c : Char) : Bool :=
  let n := c.toNat
  (9 ≤ n && n ≤ 13) || n == 0x20 || n == 0x85 || n == 0xA0 || n == 0x1680 ||
    (0x2000 ≤ n && n ≤ 0x200A) || n == 0x2028 || n == 0x2029 || n == 0x202F || n == 0x205F ||
    n == 0x3000

/-- The text without the blanks at its two ends. -/
def trimChars (cs : List Char) : List Char :=
  ((cs.dropWhile isBlank).reverse.dropWhile isBlank).reverse

def trim (s : String) : String :=
  String.ofList (trimChars s.toList)

/-- The maximal runs of characters that are not blank. -/
def words (s : String) : List String :=
  ((pieces isBlank s.toList).filter (!·.isEmpty)).map String.ofList

end RecordQuery.Text
