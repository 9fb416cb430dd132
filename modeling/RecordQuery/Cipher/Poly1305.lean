import RecordQuery.Codec.Endian

/-!
# Poly1305

The authenticator that reads a message as the coefficients of a polynomial, evaluates it modulo a
prime at a secret point, and adds a secret number.
-/

namespace RecordQuery.Cipher

-- Powers of numbers are those of the core library.
attribute [local instance (1100)] instPowNat

/-- The prime 2^130 - 5. -/
def polyPrime : Nat := 2 ^ (130 : Nat) - 5

/-- The bits that the secret point may have. -/
def polyMask : Nat := 0x0ffffffc0ffffffc0ffffffc0fffffff

/-- One more coefficient of the polynomial. -/
def polyStep (point value coefficient : Nat) : Nat :=
  (value + coefficient) * point % polyPrime

/-- The value of the polynomial of a message. Sixteen bytes are one coefficient, with a one bit
above the last of them: `part` is the number of the bytes read of the current coefficient, and
`unit` that one bit. -/
def polyFrom (point value part unit : Nat) : List UInt8 → Nat
  | [] => if unit = 1 then value else polyStep point value (part + unit)
  | b :: bytes =>
    let part := part + unit * b.toNat
    let unit := 256 * unit
    if unit = 2 ^ (128 : Nat) then polyFrom point (polyStep point value (part + unit)) 0 1 bytes
    else polyFrom point value part unit bytes

/-- The tag of a message under a secret of 32 bytes. -/
def polyTag (secret message : List UInt8) : List UInt8 :=
  let point := Codec.ofLittleEndian (secret.take 16) &&& polyMask
  let addend := Codec.ofLittleEndian ((secret.drop 16).take 16)
  Codec.littleEndian 16 (polyFrom point 0 0 1 message + addend)

end RecordQuery.Cipher
