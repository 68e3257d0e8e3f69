/-
# Integers of 128 bits

An integer of 128 bits is taken apart into two words of 64 bits and put together again. The words
can be found by arithmetic, as the quotient and the rest of a division by `2 ^ 64`, or in the bits:
by a shift and a cut, and back by a shift and an `or`. A signed integer is then shifted with its
sign, and its high word is spread over 128 bits before it is shifted back. Both ways agree on all
integers, signed and unsigned, and the words on the wire are the integer's 16 bytes.

* `Halves.join`, `Halves.high`, `Halves.low` — 128 bits and their halves.
* `Halves.shiftLeft_or`, `Halves.setWidth_sshiftRight` — what stands above a half does not matter.
* `Halves.toNat_join`, `Halves.toInt_join` — the number that two halves spell.
* `UInt128Parts.ofWord_eq`, `Int128Parts.ofWord_eq` — the bits and the arithmetic agree.
* `Halves.bigEndian_join` — the bytes of two halves are those of the whole.
* `wide_integers_exact` — all integers, all pairs of words, and their wire forms.
-/

import LedgerWire.Proofs.Types.Values
import LedgerWire.Proofs.Wire.Writing
import Mathlib.Data.List.Induction
import Mathlib.Tactic.Ring

namespace LedgerWire

/-! ### Numerals joined -/

namespace Bytes

/-- Bytes in front weigh a power of 256 for each byte behind. -/
theorem toNat_append (p q : Bytes) : toNat (p ++ q) = toNat p * 256 ^ q.length + toNat q := by
  induction q using List.reverseRecOn with
  | nil => simp [toNat]
  | append_singleton q b ih =>
      rw [← List.append_assoc, toNat_append_singleton, toNat_append_singleton, ih,
        List.length_append, List.length_singleton, Nat.pow_succ]
      ring

/-- The numeral of a number is that of its upper digits and that of its lower ones. -/
theorem bigEndian_append {m n a b : Nat} (ha : a < 256 ^ m) (hb : b < 256 ^ n) :
    bigEndian (m + n) (a * 256 ^ n + b) = bigEndian m a ++ bigEndian n b := by
  have hbytes := bigEndian_toNat (bigEndian m a ++ bigEndian n b)
  rwa [toNat_append, List.length_append, length_bigEndian, length_bigEndian, toNat_bigEndian,
    toNat_bigEndian, Nat.mod_eq_of_lt ha, Nat.mod_eq_of_lt hb] at hbytes

end Bytes

/-! ### Halves -/

namespace Halves

/-- The bits of two halves, the upper one first. -/
def join (hi lo : BitVec 64) : BitVec 128 := hi ++ lo

def high (v : BitVec 128) : BitVec 64 := (v >>> 64).setWidth 64

def low (v : BitVec 128) : BitVec 64 := v.setWidth 64

/-- The low half has the low bits, the high half the others. -/
theorem getLsbD_join (hi lo : BitVec 64) (i : Nat) :
    (join hi lo).getLsbD i = if i < 64 then lo.getLsbD i else hi.getLsbD (i - 64) :=
  BitVec.getLsbD_append

/-- A word is joined from its halves. -/
theorem join_halves (v : BitVec 128) : join (high v) (low v) = v := by
  apply BitVec.eq_of_getLsbD_eq
  intro i hi
  rw [getLsbD_join]
  unfold high low
  by_cases hlow : i < 64
  · simp [hlow]
  · have hupper : i - 64 < 64 := by omega
    have hsum : 64 + (i - 64) = i := by omega
    simp [hlow, hupper, hsum]

/-- The high half of a join is what stood there. -/
theorem high_join (hi lo : BitVec 64) : high (join hi lo) = hi := by
  apply BitVec.eq_of_getLsbD_eq
  intro i hi
  unfold high
  simp [getLsbD_join, hi]

/-- The low half of a join is what stood there. -/
theorem low_join (hi lo : BitVec 64) : low (join hi lo) = lo := by
  apply BitVec.eq_of_getLsbD_eq
  intro i hi
  unfold low
  simp [getLsbD_join, hi]

theorem low_setWidth (x : BitVec 64) : low (x.setWidth 128) = x := by
  rw [low, BitVec.setWidth_setWidth_of_le x (by decide), BitVec.setWidth_eq]

theorem low_signExtend (x : BitVec 64) : low (x.signExtend 128) = x := by
  apply BitVec.eq_of_getLsbD_eq
  intro i hi
  have hwide : i < 128 := by omega
  rw [low, BitVec.getLsbD_setWidth, BitVec.getLsbD_signExtend]
  simp [hi, hwide]

/-- A shift that brings the sign down leaves the same upper half: the copies of the sign are cut
off. -/
theorem setWidth_sshiftRight (v : BitVec 128) : (v.sshiftRight 64).setWidth 64 = high v := by
  apply BitVec.eq_of_getLsbD_eq
  intro i hi
  have hsum : 64 + i < 128 := by omega
  have hwide : ¬128 ≤ i := by omega
  unfold high
  rw [BitVec.getLsbD_setWidth, BitVec.getLsbD_setWidth, BitVec.getLsbD_sshiftRight,
    BitVec.getLsbD_ushiftRight]
  simp [hsum, hwide]

/-- **A shift and an `or` join halves**: what the shifted word has above its lower half is lost, be
it zeros or copies of a sign. -/
theorem shiftLeft_or (x : BitVec 128) (lo : BitVec 64) :
    x <<< 64 ||| lo.setWidth 128 = join (low x) lo := by
  apply BitVec.eq_of_getLsbD_eq
  intro i hi
  unfold low
  rw [getLsbD_join, BitVec.getLsbD_or, BitVec.getLsbD_shiftLeft, BitVec.getLsbD_setWidth,
    BitVec.getLsbD_setWidth]
  by_cases hlow : i < 64
  · simp [hlow, hi]
  · have hupper : i - 64 < 64 := by omega
    have hnone : lo.getLsbD i = false := BitVec.getLsbD_of_ge lo i (Nat.not_lt.1 hlow)
    simp [hlow, hi, hupper, hnone]

/-- The high half of a join weighs `2 ^ 64`. -/
theorem toNat_join (hi lo : BitVec 64) : (join hi lo).toNat = hi.toNat * 2 ^ 64 + lo.toNat := by
  unfold join
  rw [BitVec.toNat_append, ← Nat.shiftLeft_add_eq_or_of_lt lo.isLt, Nat.shiftLeft_eq]

/-- The upper half of a signed number has its sign; the lower half has none. -/
theorem toInt_join (hi lo : BitVec 64) : (join hi lo).toInt = hi.toInt * 2 ^ 64 + lo.toNat := by
  unfold join
  rw [BitVec.toInt_append, if_neg (by decide), Int.mul_comm]

/-- **The bytes of two halves are those of the whole.** -/
theorem bigEndian_join (hi lo : BitVec 64) :
    Bytes.bigEndian 16 (join hi lo).toNat
      = Bytes.bigEndian 8 hi.toNat ++ Bytes.bigEndian 8 lo.toNat := by
  have hhi : hi.toNat < 256 ^ 8 := hi.isLt
  have hlo : lo.toNat < 256 ^ 8 := lo.isLt
  have hwidth : 2 ^ 64 = 256 ^ 8 := by decide
  have hbytes := Bytes.bigEndian_append hhi hlo
  rwa [← hwidth, ← toNat_join] at hbytes

end Halves

open Halves

/-! ### Unsigned integers -/

namespace UInt128Parts

/-- The words in the bits of an integer: shifted down and cut off. -/
def ofWord (v : BitVec 128) : UInt128Parts :=
  ⟨.ofBitVec ((v >>> 64).setWidth 64), .ofBitVec (v.setWidth 64)⟩

/-- The integer with these words in its bits: the high word is shifted up. -/
def toWord (p : UInt128Parts) : BitVec 128 :=
  p.hi.toBitVec.setWidth 128 <<< 64 ||| p.lo.toBitVec.setWidth 128

/-- The shifts and the disjunction of the unsigned parts join the halves. -/
theorem toWord_eq (p : UInt128Parts) : p.toWord = join p.hi.toBitVec p.lo.toBitVec := by
  unfold toWord
  rw [shiftLeft_or, low_setWidth]

/-- Every word is that of its unsigned parts. -/
theorem toWord_ofWord (v : BitVec 128) : (ofWord v).toWord = v :=
  (toWord_eq _).trans (join_halves v)

/-- Unsigned parts are those of their word. -/
theorem ofWord_toWord (p : UInt128Parts) : ofWord p.toWord = p := by
  rw [toWord_eq]
  show mk (.ofBitVec (high _)) (.ofBitVec (low _)) = p
  rw [high_join, low_join]

/-- The word of unsigned parts counts what they mean. -/
theorem toNat_toWord (p : UInt128Parts) : p.toWord.toNat = p.toNat := by
  rw [toWord_eq, toNat_join]
  rfl

/-- Unsigned parts come back from the number they mean. -/
theorem ofNat_toNat (p : UInt128Parts) : ofNat p.toNat = p := by
  have hlo : p.lo.toNat < 2 ^ 64 := p.lo.toNat_lt
  have hnumber : p.toNat = p.hi.toNat * 2 ^ 64 + p.lo.toNat := rfl
  have hdiv : p.toNat / 2 ^ 64 = p.hi.toNat := by omega
  have hmod : p.toNat % 2 ^ 64 = p.lo.toNat := by omega
  have hhigh : UInt64.ofNat (p.toNat / UInt64.size) = p.hi :=
    (congrArg UInt64.ofNat hdiv).trans UInt64.ofNat_toNat
  have hlow : UInt64.ofNat p.toNat = p.lo := by
    rw [← UInt64.toNat_inj, UInt64.toNat_ofNat', hmod]
  rw [ofNat, hhigh, hlow]

/-- The unsigned parts of a word mean the number it counts. -/
theorem toNat_ofWord (v : BitVec 128) : (ofWord v).toNat = v.toNat := by
  rw [← toNat_toWord, toWord_ofWord]

/-- **Taken from the bits, the words are those that the arithmetic finds.** -/
theorem ofWord_eq (v : BitVec 128) : ofWord v = ofNat v.toNat := by
  rw [← toNat_ofWord v, ofNat_toNat]

end UInt128Parts

/-! ### Signed integers -/

namespace Int128Parts

/-- The words in the bits of an integer: shifted down with the sign, and cut off. -/
def ofWord (v : BitVec 128) : Int128Parts :=
  ⟨.ofBitVec ((v.sshiftRight 64).setWidth 64), .ofBitVec (v.setWidth 64)⟩

/-- The integer with these words in its bits: the high word is spread with its sign, and shifted
up. -/
def toWord (p : Int128Parts) : BitVec 128 :=
  p.hi.toBitVec.signExtend 128 <<< 64 ||| p.lo.toBitVec.setWidth 128

/-- The low half is widened without its sign, so the signed parts join the halves too. -/
theorem toWord_eq (p : Int128Parts) : p.toWord = join p.hi.toBitVec p.lo.toBitVec := by
  unfold toWord
  rw [shiftLeft_or, low_signExtend]

/-- Every word is that of its signed parts. -/
theorem toWord_ofWord (v : BitVec 128) : (ofWord v).toWord = v := by
  rw [toWord_eq, ofWord, setWidth_sshiftRight]
  exact join_halves v

/-- Signed parts are those of their word. -/
theorem ofWord_toWord (p : Int128Parts) : ofWord p.toWord = p := by
  rw [toWord_eq, ofWord, setWidth_sshiftRight, high_join]
  show mk (.ofBitVec p.hi.toBitVec) (.ofBitVec (low _)) = p
  rw [low_join, Int64.ofBitVec_toBitVec]

/-- The word of signed parts, in two's complement, is the number they mean. -/
theorem toInt_toWord (p : Int128Parts) : p.toWord.toInt = p.toInt := by
  rw [toWord_eq, toInt_join]
  rfl

/-- Signed parts come back from the number they mean. -/
theorem ofInt_toInt (p : Int128Parts) : ofInt p.toInt = p := by
  have hlo : p.lo.toNat < 2 ^ 64 := p.lo.toNat_lt
  have hnumber : p.toInt = p.hi.toInt * 2 ^ 64 + p.lo.toNat := rfl
  have hdiv : p.toInt / 2 ^ 64 = p.hi.toInt := by omega
  have hmod : (p.toInt % 2 ^ 64).toNat = p.lo.toNat := by omega
  have hhigh : Int64.ofInt (p.toInt / UInt64.size) = p.hi :=
    (congrArg Int64.ofInt hdiv).trans (Int64.ofInt_toInt p.hi)
  have hlow : UInt64.ofNat (p.toInt % UInt64.size).toNat = p.lo :=
    (congrArg UInt64.ofNat hmod).trans UInt64.ofNat_toNat
  rw [ofInt, hhigh, hlow]

/-- The signed parts of a word mean the number it is in two's complement. -/
theorem toInt_ofWord (v : BitVec 128) : (ofWord v).toInt = v.toInt := by
  rw [← toInt_toWord, toWord_ofWord]

/-- **Taken from the bits, the words are those that the arithmetic finds**, whatever the sign and
whatever the top bit of the low word. -/
theorem ofWord_eq (v : BitVec 128) : ofWord v = ofInt v.toInt := by
  rw [← toInt_ofWord v, ofInt_toInt]

/-- A negative integer whose low word has its top bit set. -/
example : ofWord 0xFFFFFFFFFFFFFFFF8000000000000000 = ⟨-1, 0x8000000000000000⟩ := rfl

end Int128Parts

/-! ### On the wire -/

open Bytes (word bigEndian)

/-- An arm that writes two words writes the bytes of both halves in one. -/
theorem ScVal.encode_of_halves {v : ScVal} {tag : UInt32} {hi lo : UInt64}
    (hput : schema.wire.put v = (do Put.u32 tag; Put.u64 hi; Put.u64 lo)) :
    schema.wire.encode v
      = .ok (word tag ++ bigEndian 16 (join hi.toBitVec lo.toBitVec).toNat) := by
  have hwrites : schema.wire.Writes v
      (word tag ++ (bigEndian 8 hi.toNat ++ bigEndian 8 lo.toNat)) := by
    rw [Codec.Writes, hput]
    exact (Put.appends_u32 tag).bind ((Put.appends_u64 hi).bind (Put.appends_u64 lo))
  rw [hwrites.encode_eq, bigEndian_join]
  rfl

/-- An unsigned wide integer is its discriminant and sixteen bytes, the highest first. -/
theorem ScVal.encode_u128 (p : UInt128Parts) :
    schema.wire.encode (.u128 p) = .ok (word 9 ++ bigEndian 16 p.toWord.toNat) := by
  rw [p.toWord_eq]
  exact encode_of_halves (Schema.recursive_put local_layout _)

/-- A signed one is written likewise, in two's complement. -/
theorem ScVal.encode_i128 (p : Int128Parts) :
    schema.wire.encode (.i128 p) = .ok (word 10 ++ bigEndian 16 p.toWord.toNat) := by
  rw [p.toWord_eq]
  exact encode_of_halves (Schema.recursive_put local_layout _)

/-- **Integers of 128 bits are exact.** An unsigned or signed integer, given by its bits, becomes
two words and is the same again; two words become an integer and are the same again. The integer is
the high word times `2 ^ 64` and the low word, the sign being that of the high word. As a contract
value it is written as the discriminant and its 16 bytes, in two's complement and the highest first.
-/
theorem wide_integers_exact :
    (∀ v : BitVec 128,
      (UInt128Parts.ofWord v).toWord = v
        ∧ UInt128Parts.ofWord v = .ofNat v.toNat
        ∧ (UInt128Parts.ofNat v.toNat).toNat = v.toNat
        ∧ v.toNat = (UInt128Parts.ofWord v).hi.toNat * 2 ^ 64 + (UInt128Parts.ofWord v).lo.toNat
        ∧ ScVal.schema.wire.encode (.ofNat128 v.toNat) = .ok (word 9 ++ bigEndian 16 v.toNat))
    ∧ (∀ p : UInt128Parts,
      UInt128Parts.ofWord p.toWord = p ∧ UInt128Parts.ofNat p.toNat = p
        ∧ p.toWord.toNat = p.toNat ∧ p.toNat = p.hi.toNat * 2 ^ 64 + p.lo.toNat)
    ∧ (∀ v : BitVec 128,
      (Int128Parts.ofWord v).toWord = v
        ∧ Int128Parts.ofWord v = .ofInt v.toInt
        ∧ (Int128Parts.ofInt v.toInt).toInt = v.toInt
        ∧ v.toInt = (Int128Parts.ofWord v).hi.toInt * 2 ^ 64 + (Int128Parts.ofWord v).lo.toNat
        ∧ ScVal.schema.wire.encode (.ofInt128 v.toInt) = .ok (word 10 ++ bigEndian 16 v.toNat))
    ∧ ∀ p : Int128Parts,
      Int128Parts.ofWord p.toWord = p ∧ Int128Parts.ofInt p.toInt = p
        ∧ p.toWord.toInt = p.toInt ∧ p.toInt = p.hi.toInt * 2 ^ 64 + p.lo.toNat := by
  refine ⟨fun v => ?_, fun p => ?_, fun v => ?_, fun p => ?_⟩
  · have hencode := ScVal.encode_u128 (.ofWord v)
    have hnumber := UInt128Parts.toNat_ofWord v
    have hwords := UInt128Parts.ofWord_eq v
    rw [UInt128Parts.toWord_ofWord, hwords] at hencode
    refine ⟨UInt128Parts.toWord_ofWord v, hwords, ?_, hnumber.symm, hencode⟩
    rw [← hwords, hnumber]
  · exact ⟨p.ofWord_toWord, p.ofNat_toNat, p.toNat_toWord, rfl⟩
  · have hencode := ScVal.encode_i128 (.ofWord v)
    have hnumber := Int128Parts.toInt_ofWord v
    have hwords := Int128Parts.ofWord_eq v
    rw [Int128Parts.toWord_ofWord, hwords] at hencode
    refine ⟨Int128Parts.toWord_ofWord v, hwords, ?_, hnumber.symm, hencode⟩
    rw [← hwords, hnumber]
  · exact ⟨p.ofWord_toWord, p.ofInt_toInt, p.toInt_toWord, rfl⟩

end LedgerWire
