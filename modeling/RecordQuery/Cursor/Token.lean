import RecordQuery.Cipher.Basic
import RecordQuery.Codec.Base64
import RecordQuery.Codec.Records
import RecordQuery.Cursor.Projection

/-!
# Page tokens

A page token carries the last record of a page, projected to the order of the list: packed,
encrypted, and written in base64. The cipher binds it to the order and to a context of the caller; a
token that was made for another order or context, or changed in any way, is refused.
-/

namespace RecordQuery.Cursor

open Codec

variable {ι : Type} [DecidableEq ι] {R : Registry ι} {t : ι}

/-- What a token is bound to: the context, a zero byte, and the canonical text of the order. -/
def associatedData (order : Order) (context : List UInt8) : List UInt8 :=
  context ++ 0 :: Text.utf8 order.signature

/-- The token that resumes after a record. -/
def encode (cipher : Cipher) (nonce : List UInt8) (r : Record R t) (order : Order)
    (context : List UInt8) : Except Error String :=
  match r.project order with
  | .error e => .error e
  | .ok projected =>
    match cipher.encrypt nonce (encodeRecord projected) (associatedData order context) with
    | some sealed => .ok (Base64.encode Base64.urlSafe sealed)
    | none => .error .encryption

/-- The record that a token carries. An order that does not compile is reported before anything is
said about the token. -/
def decode (R : Registry ι) (t : ι) (cipher : Cipher) (token : String) (order : Order)
    (context : List UInt8) : Except Error (Record R t) :=
  match order.compile R t with
  | .error e => .error e
  | .ok _ =>
    let record? := do
      let sealed ← Base64.decode? Base64.urlSafe token
      let plaintext ← cipher.decrypt sealed (associatedData order context)
      decodeRecord? R t plaintext
    match record? with
    | some r => .ok r
    | none => .error .invalidPageToken

end RecordQuery.Cursor
