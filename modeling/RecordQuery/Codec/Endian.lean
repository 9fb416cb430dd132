/-!
# Numbers as bytes

Natural numbers as bytes in the two byte orders.
-/

namespace RecordQuery.Codec

-- Powers of numbers are those of the core library.
attribute [local instance (1100)] instPowNat

/-- The number with the given bytes, the least significant first. -/
def ofLittleEndian (bytes : List UInt8) : Nat :=
  bytes.foldr (fun b n ↦ b.toNat + 256 * n) 0

/-- The given number of bytes of a number, the least significant first. -/
def littleEndian : (width : Nat) → Nat → List UInt8
  | 0, _ => []
  | width + 1, n => .ofNat n :: littleEndian width (n / 256)

/-- The number with the given bytes, the most significant first. -/
def ofBigEndian (bytes : List UInt8) : Nat :=
  ofLittleEndian bytes.reverse

/-- The given number of bytes of a number, the most significant first. -/
def bigEndian (width n : Nat) : List UInt8 :=
  (littleEndian width n).reverse

@[simp] theorem length_littleEndian (width n : Nat) : (littleEndian width n).length = width := by
  induction width generalizing n with
  | zero => rfl
  | succ width ih => simp [littleEndian, ih]

/-- A number that fits its width is read back from its bytes. -/
theorem ofLittleEndian_littleEndian {width n : Nat} (h : n < 256 ^ width) :
    ofLittleEndian (littleEndian width n) = n := by
  induction width generalizing n with
  | zero => simp only [Nat.pow_zero] at h; simp [littleEndian, ofLittleEndian]; omega
  | succ width ih =>
    have hd : n / 256 < 256 ^ width := by
      rw [Nat.pow_succ] at h
      exact Nat.div_lt_of_lt_mul (by rwa [Nat.mul_comm])
    have := ih hd
    simp only [ofLittleEndian] at this
    simp only [littleEndian, ofLittleEndian, List.foldr_cons, this, UInt8.toNat_ofNat']
    omega

theorem ofBigEndian_bigEndian {width n : Nat} (h : n < 256 ^ width) :
    ofBigEndian (bigEndian width n) = n := by
  rw [ofBigEndian, bigEndian, List.reverse_reverse, ofLittleEndian_littleEndian h]

/-- The first `n` items and the rest, if there are as many. -/
def splitAt? {α : Type} (n : Nat) (l : List α) : Option (List α × List α) :=
  if n ≤ l.length then some (l.take n, l.drop n) else none

end RecordQuery.Codec
