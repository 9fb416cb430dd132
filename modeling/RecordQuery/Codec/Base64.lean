import RecordQuery.Codec.Endian

/-!
# Base64

Bytes as text of 64 characters, three bytes to four characters. Decoding is strict: no other
character may occur, the text may not have one character more than full groups, and the bits that
belong to no byte have to be zero.
-/

namespace RecordQuery.Codec.Base64

/-- The two characters in which base64 alphabets differ. -/
structure Alphabet where
  char62 : Char
  char63 : Char
deriving DecidableEq

def standard : Alphabet := ⟨'+', '/'⟩

/-- The alphabet that is safe in URLs. -/
def urlSafe : Alphabet := ⟨'-', '_'⟩

def digit (a : Alphabet) (n : Nat) : Char :=
  if n < 26 then Char.ofNat (n + 65)
  else if n < 52 then Char.ofNat (n + 71)
  else if n < 62 then Char.ofNat (n - 4)
  else if n = 62 then a.char62
  else a.char63

def value? (a : Alphabet) (c : Char) : Option Nat :=
  if c == a.char62 then some 62
  else if c == a.char63 then some 63
  else if 'A' ≤ c ∧ c ≤ 'Z' then some (c.toNat - 65)
  else if 'a' ≤ c ∧ c ≤ 'z' then some (c.toNat - 71)
  else if '0' ≤ c ∧ c ≤ '9' then some (c.toNat + 4)
  else none

/-- The numbers below 64 of a list of bytes. -/
def sextets : List UInt8 → List Nat
  | [] => []
  | [x] => [x.toNat / 4, x.toNat % 4 * 16]
  | [x, y] => [x.toNat / 4, x.toNat % 4 * 16 + y.toNat / 16, y.toNat % 16 * 4]
  | x :: y :: z :: rest =>
    x.toNat / 4 :: (x.toNat % 4 * 16 + y.toNat / 16) :: (y.toNat % 16 * 4 + z.toNat / 64) ::
      z.toNat % 64 :: sextets rest

/-- The bytes of a list of numbers below 64. -/
def octets? : List Nat → Option (List UInt8)
  | [] => some []
  | [_] => none
  | [p, q] => if q % 16 = 0 then some [.ofNat (p * 4 + q / 16)] else none
  | [p, q, r] =>
    if r % 4 = 0 then some [.ofNat (p * 4 + q / 16), .ofNat (q % 16 * 16 + r / 4)] else none
  | p :: q :: r :: s :: rest =>
    (octets? rest).map fun bytes ↦
      .ofNat (p * 4 + q / 16) :: .ofNat (q % 16 * 16 + r / 4) :: .ofNat (r % 4 * 64 + s) :: bytes

/-- The text of a list of bytes, without padding. -/
def encode (a : Alphabet) (bytes : List UInt8) : String :=
  String.ofList ((sextets bytes).map (digit a))

/-- The text of a list of bytes, padded to full groups of four characters. -/
def encodePadded (a : Alphabet) (bytes : List UInt8) : String :=
  let cs := (sextets bytes).map (digit a)
  String.ofList (cs ++ List.replicate ((4 - cs.length % 4) % 4) '=')

/-- The bytes of a text without padding. -/
def decode? (a : Alphabet) (s : String) : Option (List UInt8) :=
  (s.toList.mapM (value? a)).bind octets?

/-- The text without its padding, if it is padded to full groups. -/
def unpad? (cs : List Char) : Option (List Char) :=
  if cs.length % 4 ≠ 0 then none
  else
    match cs.reverse with
    | '=' :: '=' :: rest => some rest.reverse
    | '=' :: rest => some rest.reverse
    | _ => some cs

def decodePadded? (a : Alphabet) (s : String) : Option (List UInt8) :=
  (unpad? s.toList).bind fun cs ↦ decode? a (String.ofList cs)

end RecordQuery.Codec.Base64
