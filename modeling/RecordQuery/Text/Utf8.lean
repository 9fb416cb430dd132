/-!
# UTF-8

Texts as lists of bytes, and the byte length of a run of characters, in which positions inside a
text are counted.
-/

namespace RecordQuery.Text

def utf8 (s : String) : List UInt8 :=
  s.toUTF8.toList

/-- The text with the given UTF-8 bytes, if they are valid. -/
def ofUtf8? (bytes : List UInt8) : Option String :=
  String.fromUTF8? bytes.toByteArray

/-- The number of UTF-8 bytes of a run of characters. -/
def byteLength : List Char → Nat
  | [] => 0
  | c :: cs => c.utf8Size + byteLength cs

theorem byteLength_append (cs ds : List Char) :
    byteLength (cs ++ ds) = byteLength cs + byteLength ds := by
  induction cs with
  | nil => rw [List.nil_append, byteLength, Nat.zero_add]
  | cons c cs ih => rw [List.cons_append, byteLength, byteLength, ih, Nat.add_assoc]

theorem byteLength_pos {cs : List Char} (h : cs ≠ []) : 0 < byteLength cs := by
  cases cs with
  | nil => exact absurd rfl h
  | cons c cs => exact Nat.add_pos_left c.utf8Size_pos _

end RecordQuery.Text
