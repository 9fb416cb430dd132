import RecordQuery.Cipher.Basic
import RecordQuery.Cipher.ChaCha20
import RecordQuery.Cipher.Poly1305
import RecordQuery.Codec.Base64
import RecordQuery.Error
import RecordQuery.Text.Blank

/-!
# ChaCha20-Poly1305

The cipher of page tokens. A sealed text is a nonce of 12 bytes, the encrypted text, and a tag of 16
bytes that authenticates it together with the associated data.
-/

namespace RecordQuery.Cipher

def nonceLength : Nat := 12

def tagLength : Nat := 16

/-- Zero bytes up to the next multiple of 16. -/
def padding (bytes : List UInt8) : List UInt8 :=
  List.replicate ((16 - bytes.length % 16) % 16) 0

/-- The tag of an encrypted text and its associated data. -/
def tag (key : Key) (nonce encrypted associated : List UInt8) : List UInt8 :=
  polyTag (block key nonce 0) (associated ++ padding associated ++ encrypted ++ padding encrypted ++
    Codec.littleEndian 8 associated.length ++ Codec.littleEndian 8 encrypted.length)

/-- Seals a text; a nonce of another length is refused. -/
def encryptWith (key : Key) (nonce plaintext associated : List UInt8) : Option (List UInt8) :=
  if nonce.length = nonceLength then
    let encrypted := applyStream key nonce plaintext
    some (nonce ++ encrypted ++ tag key nonce encrypted associated)
  else none

/-- Opens a sealed text if its tag is right. -/
def decryptWith (key : Key) (sealed associated : List UInt8) : Option (List UInt8) :=
  if sealed.length < nonceLength + tagLength then none
  else
    let nonce := sealed.take nonceLength
    let rest := sealed.drop nonceLength
    let encrypted := rest.take (rest.length - tagLength)
    if rest.drop (rest.length - tagLength) = tag key nonce encrypted associated then
      some (applyStream key nonce encrypted)
    else none

def chaChaPoly (key : Key) : Cipher :=
  ⟨encryptWith key, decryptWith key⟩

/-- The text that stands for a cipher, which shows nothing of its key. -/
def debugText : String := "ChaChaAead(..)"

def Key.ofBytes (bytes : List UInt8) : Except Error Key :=
  if h : bytes.length = 32 then .ok ⟨bytes, h⟩ else .error (.config (.keyLength bytes.length))

/-- The key written in padded base64, with blanks around it. -/
def Key.ofBase64 (s : String) : Except Error Key :=
  match Codec.Base64.decodePadded? Codec.Base64.standard (Text.trim s) with
  | some bytes => Key.ofBytes bytes
  | none => .error (.config .keyText)

def Key.toBase64 (key : Key) : String :=
  Codec.Base64.encodePadded Codec.Base64.standard key.bytes

end RecordQuery.Cipher
