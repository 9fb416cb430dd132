/-!
# Ciphers

A cipher seals a text together with associated data that is not part of the result, and opens only
what was sealed with the same associated data. What has to be fresh for every text is passed to it.
-/

namespace RecordQuery

/-- Authenticated encryption with associated data. Both operations may refuse. -/
structure Cipher where
  encrypt (nonce plaintext associated : List UInt8) : Option (List UInt8)
  decrypt (sealed associated : List UInt8) : Option (List UInt8)

end RecordQuery
