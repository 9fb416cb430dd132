import RecordQuery.Codec.Endian

/-!
# ChaCha20

The stream cipher that mixes a state of four rows of four words. A key and a nonce give a stream of
blocks of 64 bytes, which is combined with the text.
-/

namespace RecordQuery.Cipher

/-- A key of 32 bytes. -/
structure Key where
  bytes : List UInt8
  length_bytes : bytes.length = 32

/-- Four words, which are worked on side by side. -/
structure Row where
  w0 : UInt32
  w1 : UInt32
  w2 : UInt32
  w3 : UInt32
deriving DecidableEq

namespace Row

/-- The row with the results of an operation on the words of two rows. -/
def combine (f : UInt32 → UInt32 → UInt32) (a b : Row) : Row :=
  ⟨f a.w0 b.w0, f a.w1 b.w1, f a.w2 b.w2, f a.w3 b.w3⟩

/-- The row with an operation applied to each word. -/
def map (f : UInt32 → UInt32) (a : Row) : Row :=
  ⟨f a.w0, f a.w1, f a.w2, f a.w3⟩

/-- The row with its words moved one place to the left. -/
def rotate (a : Row) : Row :=
  ⟨a.w1, a.w2, a.w3, a.w0⟩

def ofBytes (bytes : List UInt8) : Row :=
  let word (i : Nat) : UInt32 := .ofNat (Codec.ofLittleEndian ((bytes.drop (4 * i)).take 4))
  ⟨word 0, word 1, word 2, word 3⟩

def toBytes (a : Row) : List UInt8 :=
  [a.w0, a.w1, a.w2, a.w3].flatMap fun w ↦ Codec.littleEndian 4 w.toNat

end Row

def rotateLeft (n : UInt32) (w : UInt32) : UInt32 :=
  (w <<< n) ||| (w >>> (32 - n))

/-- The state of the cipher. -/
structure Rows where
  a : Row
  b : Row
  c : Row
  d : Row
deriving DecidableEq

namespace Rows

/-- Mixes the four words of each column. -/
def mix (s : Rows) : Rows :=
  let a := s.a.combine (· + ·) s.b
  let d := (s.d.combine (· ^^^ ·) a).map (rotateLeft 16)
  let c := s.c.combine (· + ·) d
  let b := (s.b.combine (· ^^^ ·) c).map (rotateLeft 12)
  let a := a.combine (· + ·) b
  let d := (d.combine (· ^^^ ·) a).map (rotateLeft 8)
  let c := c.combine (· + ·) d
  let b := (b.combine (· ^^^ ·) c).map (rotateLeft 7)
  ⟨a, b, c, d⟩

/-- Mixes the columns and then the diagonals. -/
def doubleRound (s : Rows) : Rows :=
  let s := s.mix
  let s := mix ⟨s.a, s.b.rotate, s.c.rotate.rotate, s.d.rotate.rotate.rotate⟩
  ⟨s.a, s.b.rotate.rotate.rotate, s.c.rotate.rotate, s.d.rotate⟩

def rounds : Nat → Rows → Rows
  | 0, s => s
  | n + 1, s => rounds n s.doubleRound

/-- The state in which a block begins. -/
def initial (key : Key) (nonce : List UInt8) (counter : Nat) : Rows :=
  ⟨⟨0x61707865, 0x3320646e, 0x79622d32, 0x6b206574⟩, .ofBytes (key.bytes.take 16),
    .ofBytes (key.bytes.drop 16), .ofBytes (Codec.littleEndian 4 counter ++ nonce)⟩

def sumBytes (s t : Rows) : List UInt8 :=
  [s.a.combine (· + ·) t.a, s.b.combine (· + ·) t.b, s.c.combine (· + ·) t.c,
    s.d.combine (· + ·) t.d].flatMap Row.toBytes

end Rows

/-- One block of the stream. -/
def block (key : Key) (nonce : List UInt8) (counter : Nat) : List UInt8 :=
  let start := Rows.initial key nonce counter
  (Rows.rounds 10 start).sumBytes start

/-- At least `length` bytes of the stream from block 1 on. -/
def stream (key : Key) (nonce : List UInt8) (length : Nat) : List UInt8 :=
  (List.range ((length + 63) / 64)).flatMap fun i ↦ block key nonce (i + 1)

/-- A text combined with the stream; combining twice gives the text back. -/
def applyStream (key : Key) (nonce text : List UInt8) : List UInt8 :=
  List.zipWith (· ^^^ ·) text (stream key nonce text.length)

end RecordQuery.Cipher
