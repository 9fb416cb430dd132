import RecordQuery.Cipher.Basic

/-!
# Laws of ciphers

Page tokens rest on two properties of the cipher: a lawful one seals every text and opens what it
sealed, and a binding one opens nothing under associated data other than those of the seal. Writing
the associated data before the text, in a form that tells where they end, has both properties,
although it hides nothing.
-/

namespace RecordQuery.Cipher

/-- A cipher that never refuses to seal, and opens what it sealed. -/
def Lawful (cipher : Cipher) : Prop :=
  ∀ nonce plaintext associated, ∃ text, cipher.encrypt nonce plaintext associated = some text ∧
    cipher.decrypt text associated = some plaintext

/-- A cipher that opens nothing under associated data other than those it was sealed with. -/
def Binding (cipher : Cipher) : Prop :=
  ∀ nonce plaintext associated associated' text,
    cipher.encrypt nonce plaintext associated = some text → associated ≠ associated' →
      cipher.decrypt text associated' = none

/-- Bytes in a form that tells where they end: a one before every byte, and a zero after the last. -/
def frame : List UInt8 → List UInt8
  | [] => [0]
  | byte :: bytes => 1 :: byte :: frame bytes

/-- What follows the framed form of some bytes. -/
def afterFrame? : List UInt8 → List UInt8 → Option (List UInt8)
  | [], 0 :: text => some text
  | byte :: bytes, 1 :: byte' :: text => if byte = byte' then afterFrame? bytes text else none
  | _, _ => none

/-- A frame is taken off a text only by the bytes it was put there for. -/
theorem afterFrame?_frame (bytes bytes' text : List UInt8) :
    afterFrame? bytes' (frame bytes ++ text) = if bytes = bytes' then some text else none := by
  induction bytes generalizing bytes' with
  | nil =>
    cases bytes' with
    | nil => rfl
    | cons byte' bytes' => rfl
  | cons byte bytes ih =>
    cases bytes' with
    | nil => rfl
    | cons byte' bytes' =>
      rw [frame, List.cons_append, List.cons_append, afterFrame?, ih]
      by_cases hbyte : byte = byte'
      · simp [hbyte]
      · simp [hbyte, Ne.symm hbyte]

/-- The cipher that writes the associated data before the text and hides neither. -/
def framed : Cipher where
  encrypt _ plaintext associated := some (frame associated ++ plaintext)
  decrypt text associated := afterFrame? associated text

/-- The cipher decrypts what it encrypted under the same associated data, which makes the hypothesis
on ciphers satisfiable. -/
theorem framed_lawful : framed.Lawful := by
  intro nonce plaintext associated
  refine ⟨frame associated ++ plaintext, rfl, ?_⟩
  calc
    afterFrame? associated (frame associated ++ plaintext)
      = if associated = associated then some plaintext else none :=
        afterFrame?_frame associated associated plaintext
    _ = some plaintext := if_pos rfl

/-- Under other associated data than it was encrypted with, a text is refused. -/
theorem framed_binding : framed.Binding := by
  intro nonce plaintext associated associated' text hseal hne
  obtain rfl := Option.some.inj hseal
  calc
    afterFrame? associated' (frame associated ++ plaintext)
      = if associated = associated' then some plaintext else none :=
        afterFrame?_frame associated associated' plaintext
    _ = none := if_neg hne

end RecordQuery.Cipher
