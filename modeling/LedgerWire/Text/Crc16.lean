/-
# A sixteen-bit checksum

The cyclic redundancy check with the polynomial `x¹⁶ + x¹² + x⁵ + 1`, started at zero and fed
highest bit first. Each step is linear in exclusive or, which is what makes a changed byte show.

* `Crc16.checksum` — the remainder that a byte string leaves.
* `Crc16.shift_xor` — one shift of two remainders' difference is the difference of their shifts.
-/

import LedgerWire.Bytes

namespace LedgerWire.Crc16

/-- The polynomial without its leading term. -/
def polynomial : BitVec 16 := 0x1021#16

/-- One bit of division: the remainder moves up, and the polynomial is taken out of an overflow. -/
def shift (r : BitVec 16) : BitVec 16 :=
  if r.msb then (r <<< 1) ^^^ polynomial else r <<< 1

/-- The remainder after one more byte. -/
def addByte (r : BitVec 16) (b : UInt8) : BitVec 16 :=
  let r := r ^^^ (BitVec.ofNat 16 b.toNat <<< 8)
  shift (shift (shift (shift (shift (shift (shift (shift r)))))))

/-- The remainder of a byte string. -/
def checksum (bytes : Bytes) : BitVec 16 := bytes.foldl addByte 0

/-- The two bytes of the checksum, low byte first. -/
def tail (bytes : Bytes) : Bytes := Bytes.littleEndian 2 (checksum bytes).toNat

/-- A shift is linear in exclusive or. -/
theorem shift_xor (a b : BitVec 16) : shift (a ^^^ b) = shift a ^^^ shift b := by
  unfold shift
  have hmsb : (a ^^^ b).msb = (a.msb ^^ b.msb) := by simp [BitVec.msb_xor]
  rw [hmsb, BitVec.shiftLeft_xor_distrib]
  cases a.msb <;> cases b.msb <;> simp <;> grind

end LedgerWire.Crc16
