import RecordQuery.Codec.Endian

/-!
# MessagePack

The values of the MessagePack format and their bytes. Writing uses the shortest header and the
shortest form of every integer; reading accepts every header and every form, and leaves the bytes
after the value.
-/

namespace RecordQuery.Codec

-- Powers of numbers are those of the core library.
attribute [local instance (1100)] instPowNat

/-- A MessagePack value. Integers remember whether they came in a signed form, floats are held by
their bits, and a text by its bytes, which need not be valid. -/
inductive Packed where
  | nil
  | bool (b : Bool)
  | unsigned (n : Nat)
  | signed (n : Int)
  | single (bits : Nat)
  | double (bits : Nat)
  | text (bytes : List UInt8)
  | binary (bytes : List UInt8)
  | array (items : List Packed)
  | map (pairs : List (Packed × Packed))
  | extension (kind : UInt8) (bytes : List UInt8)

namespace Packed

/-- An integer in the form it is written in. -/
def ofInt (n : Int) : Packed :=
  if 0 ≤ n then unsigned n.toNat else signed n

/-- A header byte followed by a number in big-endian order. -/
def header (code : UInt8) (width n : Nat) : List UInt8 :=
  code :: bigEndian width n

def textHeader (n : Nat) : List UInt8 :=
  if n < 32 then [.ofNat (0xA0 + n)]
  else if n < 0x100 then header 0xD9 1 n
  else if n < 0x10000 then header 0xDA 2 n
  else header 0xDB 4 n

def binaryHeader (n : Nat) : List UInt8 :=
  if n < 0x100 then header 0xC4 1 n
  else if n < 0x10000 then header 0xC5 2 n
  else header 0xC6 4 n

def extensionHeader (n : Nat) : List UInt8 :=
  if n < 0x100 then header 0xC7 1 n
  else if n < 0x10000 then header 0xC8 2 n
  else header 0xC9 4 n

def arrayHeader (n : Nat) : List UInt8 :=
  if n < 16 then [.ofNat (0x90 + n)]
  else if n < 0x10000 then header 0xDC 2 n
  else header 0xDD 4 n

def mapHeader (n : Nat) : List UInt8 :=
  if n < 16 then [.ofNat (0x80 + n)]
  else if n < 0x10000 then header 0xDE 2 n
  else header 0xDF 4 n

def encodeUnsigned (n : Nat) : List UInt8 :=
  if n < 0x80 then [.ofNat n]
  else if n < 0x100 then header 0xCC 1 n
  else if n < 0x10000 then header 0xCD 2 n
  else if n < 0x100000000 then header 0xCE 4 n
  else header 0xCF 8 n

def encodeSigned (n : Int) : List UInt8 :=
  if -0x20 ≤ n ∧ n < 0 then [.ofNat (n + 0x100).toNat]
  else if -0x80 ≤ n ∧ n < 0x80 then header 0xD0 1 (n % 0x100).toNat
  else if -0x8000 ≤ n ∧ n < 0x8000 then header 0xD1 2 (n % 0x10000).toNat
  else if -0x80000000 ≤ n ∧ n < 0x80000000 then header 0xD2 4 (n % 0x100000000).toNat
  else header 0xD3 8 (n % 0x10000000000000000).toNat

mutual

def encode : Packed → List UInt8
  | nil => [0xC0]
  | bool b => [if b then 0xC3 else 0xC2]
  | unsigned n => encodeUnsigned n
  | signed n => encodeSigned n
  | single bits => header 0xCA 4 bits
  | double bits => header 0xCB 8 bits
  | text bytes => textHeader bytes.length ++ bytes
  | binary bytes => binaryHeader bytes.length ++ bytes
  | array items => arrayHeader items.length ++ encodeItems items
  | map pairs => mapHeader pairs.length ++ encodePairs pairs
  | extension kind bytes => extensionHeader bytes.length ++ kind :: bytes

def encodeItems : List Packed → List UInt8
  | [] => []
  | item :: items => encode item ++ encodeItems items

def encodePairs : List (Packed × Packed) → List UInt8
  | [] => []
  | (key, value) :: pairs => encode key ++ encode value ++ encodePairs pairs

end

/-- What a first byte announces: a complete value, or what has to be read after it. -/
inductive Header where
  | value (v : Packed)
  | unsigned (width : Nat)
  | signed (width : Nat)
  | single
  | double
  | text (length : Nat)
  | textOf (width : Nat)
  | binaryOf (width : Nat)
  | array (length : Nat)
  | arrayOf (width : Nat)
  | map (length : Nat)
  | mapOf (width : Nat)
  | extension (length : Nat)
  | extensionOf (width : Nat)

/-- What a first byte announces; one byte is not used. -/
def header? (first : UInt8) : Option Header :=
  let n := first.toNat
  if n < 0x80 then some (.value (.unsigned n))
  else if n < 0x90 then some (.map (n - 0x80))
  else if n < 0xA0 then some (.array (n - 0x90))
  else if n < 0xC0 then some (.text (n - 0xA0))
  else if 0xE0 ≤ n then some (.value (.signed ((n : Int) - 0x100)))
  else
    match n with
    | 0xC0 => some (.value .nil)
    | 0xC2 => some (.value (.bool false))
    | 0xC3 => some (.value (.bool true))
    | 0xC4 => some (.binaryOf 1)
    | 0xC5 => some (.binaryOf 2)
    | 0xC6 => some (.binaryOf 4)
    | 0xC7 => some (.extensionOf 1)
    | 0xC8 => some (.extensionOf 2)
    | 0xC9 => some (.extensionOf 4)
    | 0xCA => some .single
    | 0xCB => some .double
    | 0xCC => some (.unsigned 1)
    | 0xCD => some (.unsigned 2)
    | 0xCE => some (.unsigned 4)
    | 0xCF => some (.unsigned 8)
    | 0xD0 => some (.signed 1)
    | 0xD1 => some (.signed 2)
    | 0xD2 => some (.signed 4)
    | 0xD3 => some (.signed 8)
    | 0xD4 => some (.extension 1)
    | 0xD5 => some (.extension 2)
    | 0xD6 => some (.extension 4)
    | 0xD7 => some (.extension 8)
    | 0xD8 => some (.extension 16)
    | 0xD9 => some (.textOf 1)
    | 0xDA => some (.textOf 2)
    | 0xDB => some (.textOf 4)
    | 0xDC => some (.arrayOf 2)
    | 0xDD => some (.arrayOf 4)
    | 0xDE => some (.mapOf 2)
    | 0xDF => some (.mapOf 4)
    | _ => none

/-- Reads a number of `width` bytes. -/
def readNumber? (width : Nat) (bytes : List UInt8) : Option (Nat × List UInt8) :=
  (splitAt? width bytes).map fun (number, rest) ↦ (ofBigEndian number, rest)

/-- Reads an extension with a payload of `length` bytes. -/
def readExtension? (length : Nat) : List UInt8 → Option (Packed × List UInt8)
  | [] => none
  | kind :: bytes =>
    (splitAt? length bytes).map fun (payload, rest) ↦ (.extension kind payload, rest)

/-- Reads `count` values one after the other. -/
def readMany? (read? : List UInt8 → Option (Packed × List UInt8)) :
    (count : Nat) → List UInt8 → Option (List Packed × List UInt8)
  | 0, bytes => some ([], bytes)
  | count + 1, bytes =>
    (read? bytes).bind fun (item, bytes) ↦
      (readMany? read? count bytes).map fun (items, bytes) ↦ (item :: items, bytes)

/-- Reads `count` pairs of values one after the other. -/
def readPairs? (read? : List UInt8 → Option (Packed × List UInt8)) :
    (count : Nat) → List UInt8 → Option (List (Packed × Packed) × List UInt8)
  | 0, bytes => some ([], bytes)
  | count + 1, bytes =>
    (read? bytes).bind fun (key, bytes) ↦
      (read? bytes).bind fun (value, bytes) ↦
        (readPairs? read? count bytes).map fun (pairs, bytes) ↦ ((key, value) :: pairs, bytes)

/-- Reads the value of which the header has been read; `array?` and `map?` read the items of arrays
and the pairs of maps, and `extension?` the payload of an extension. -/
def readBody? (array? : Nat → List UInt8 → Option (List Packed × List UInt8))
    (map? : Nat → List UInt8 → Option (List (Packed × Packed) × List UInt8))
    (extension? : Nat → List UInt8 → Option (Packed × List UInt8))
    (h : Header) (bytes : List UInt8) : Option (Packed × List UInt8) :=
  let text? (length : Nat) (bytes : List UInt8) :=
    (splitAt? length bytes).map fun (content, rest) ↦ (text content, rest)
  let arrayOf? (length : Nat) (bytes : List UInt8) :=
    (array? length bytes).map fun (items, rest) ↦ (array items, rest)
  let mapOf? (length : Nat) (bytes : List UInt8) :=
    (map? length bytes).map fun (pairs, rest) ↦ (map pairs, rest)
  match h with
  | .value v => some (v, bytes)
  | .unsigned width => (readNumber? width bytes).map fun (n, rest) ↦ (unsigned n, rest)
  | .signed width =>
    (readNumber? width bytes).map fun (n, rest) ↦ (signed (Int.bmod n (256 ^ width)), rest)
  | .single => (readNumber? 4 bytes).map fun (n, rest) ↦ (single n, rest)
  | .double => (readNumber? 8 bytes).map fun (n, rest) ↦ (double n, rest)
  | .text length => text? length bytes
  | .textOf width => (readNumber? width bytes).bind fun (n, rest) ↦ text? n rest
  | .binaryOf width =>
    (readNumber? width bytes).bind fun (n, rest) ↦
      (splitAt? n rest).map fun (content, rest) ↦ (binary content, rest)
  | .array length => arrayOf? length bytes
  | .arrayOf width => (readNumber? width bytes).bind fun (n, rest) ↦ arrayOf? n rest
  | .map length => mapOf? length bytes
  | .mapOf width => (readNumber? width bytes).bind fun (n, rest) ↦ mapOf? n rest
  | .extension length => extension? length bytes
  | .extensionOf width => (readNumber? width bytes).bind fun (n, rest) ↦ extension? n rest

/-- Reads a value in which arrays, maps and extensions are nested at most `depth` deep. -/
def read? : (depth : Nat) → List UInt8 → Option (Packed × List UInt8)
  | _, [] => none
  | 0, first :: bytes =>
    (header? first).bind fun h ↦
      readBody? (fun _ _ ↦ none) (fun _ _ ↦ none) (fun _ _ ↦ none) h bytes
  | depth + 1, first :: bytes =>
    (header? first).bind fun h ↦
      readBody? (readMany? (read? depth)) (readPairs? (read? depth)) readExtension? h bytes

def depthLimit : Nat := 1023

/-- The value at the start of a list of bytes. -/
def decode? (bytes : List UInt8) : Option Packed :=
  (read? depthLimit bytes).map Prod.fst

end Packed

end RecordQuery.Codec
