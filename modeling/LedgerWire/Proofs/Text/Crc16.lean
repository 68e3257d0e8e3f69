/-
# What the checksum tells apart

The checksum takes in one bit after the other: the bit is added to the highest one of the remainder,
and the remainder is shifted. A shift loses nothing. So strings that differ in up to sixteen bits
next to each other leave different remainders, whatever stands before and behind these bits. What
stands behind a byte string in a text is its checksum, low byte first; bits that differ on both
sides of that border are too few to reach the high byte, and up to four bits before the border show
in it.

* `shift_injective` — a shift loses nothing.
* `addBits_eq` — up to sixteen bits are taken in like one word.
* `checksum_eq` — the checksum of a byte string, bit by bit.
* `eq_of_addBits_eq` — up to sixteen bits are told apart by the remainder.
* `eq_of_highByte_eq` — the last four bits are told apart by its high byte.
* `eq_of_window` — byte strings with their checksums never differ in five bits next to each other
  alone.
-/

import Mathlib.Logic.Function.Iterate
import LedgerWire.Proofs.Text.Bits
import LedgerWire.Text.Crc16

namespace LedgerWire.Crc16

open LedgerWire.Text

/-! ### Shifts -/

/-- The lowest bit after a shift is the one that was shifted out. -/
theorem getLsbD_shift_zero (r : BitVec 16) : (shift r).getLsbD 0 = r.msb := by
  unfold shift
  cases r.msb <;> simp [polynomial]

/-- **Shifting loses nothing**: a bit that is moved out leaves the polynomial behind, which ends in
a one. -/
theorem eq_zero_of_shift_eq_zero {r : BitVec 16} (h : shift r = 0) : r = 0 := by
  -- The lowest bit of the shift is the one that was moved out.
  have hmsb : r.msb = false := by
    rw [← getLsbD_shift_zero, h]
    rfl
  rw [shift, hmsb, if_neg Bool.false_ne_true] at h
  refine BitVec.eq_of_getElem_eq fun i hi => ?_
  rcases Nat.lt_or_ge i 15 with hlow | hhigh
  · have hbit := congrArg (BitVec.getLsbD · (i + 1)) h
    simpa [show i + 1 < 16 by omega] using hbit
  · obtain rfl : i = 15 := by omega
    simpa [BitVec.msb_eq_getLsbD_last] using hmsb

/-- **A shift loses nothing**, since it is linear. -/
theorem shift_injective : Function.Injective shift := by
  intro a b h
  have hzero : shift (a ^^^ b) = 0 := by
    rw [shift_xor, h]
    exact BitVec.xor_self
  exact BitVec.xor_eq_zero_iff.1 (eq_zero_of_shift_eq_zero hzero)

/-- What was moved down is moved up again, unless a bit was lost. -/
theorem shift_ushiftRight {r : BitVec 16} (h : r.getLsbD 0 = false) : shift (r >>> 1) = r := by
  have hmsb : (r >>> 1).msb = false := by simp [BitVec.msb_eq_getLsbD_last]
  rw [shift, hmsb, if_neg Bool.false_ne_true]
  apply BitVec.eq_of_getLsbD_eq
  intro i hi
  cases i with
  | zero => simpa using h.symm
  | succ i => simp [hi, Nat.add_comm]

/-! ### Bits -/

/-- A bit in the highest place. -/
def top (b : Bool) : BitVec 16 := if b then 0x8000#16 else 0#16

/-- The remainder after one more bit. -/
def addBit (r : BitVec 16) (b : Bool) : BitVec 16 := shift (r ^^^ top b)

def addBits (r : BitVec 16) (bits : List Bool) : BitVec 16 := bits.foldl addBit r

/-- The first bits of a string, the first one in the highest place. -/
def word : List Bool → BitVec 16
  | [] => 0
  | b :: bits => top b ^^^ (word bits >>> 1)

/-- Bits are added in order. -/
@[simp] theorem addBits_append (r : BitVec 16) (front back : List Bool) :
    addBits r (front ++ back) = addBits (addBits r front) back :=
  List.foldl_append

/-- Adding a bit loses nothing of the register. -/
theorem addBit_injective (b : Bool) : Function.Injective (addBit · b) := by
  intro r s h
  exact (BitVec.xor_left_inj (top b)).1 (shift_injective h)

/-- Bits behind different remainders leave different remainders. -/
theorem addBits_injective (bits : List Bool) : Function.Injective (addBits · bits) := by
  induction bits with
  | nil => exact fun r s h => h
  | cons b bits ih => exact ih.comp (addBit_injective b)

theorem msb_top : ∀ b, (top b).msb = b := by decide

theorem getLsbD_top : ∀ b, ∀ i < 15, (top b).getLsbD i = false := by decide

theorem msb_word_cons (b : Bool) (bits : List Bool) : (word (b :: bits)).msb = b := by
  have hmoved : (word bits >>> 1).msb = false := by simp [BitVec.msb_eq_getLsbD_last]
  rw [word, BitVec.msb_xor, msb_top, hmoved, Bool.xor_false]

/-- The places below the first bits are empty. -/
theorem getLsbD_word {bits : List Bool} {i : Nat} (h : i + bits.length < 16) :
    (word bits).getLsbD i = false := by
  induction bits generalizing i with
  | nil => simp [word]
  | cons b bits ih =>
      have hrest : (word bits).getLsbD (1 + i) = false :=
        ih (by rw [List.length_cons] at h; omega)
      have htop : (top b).getLsbD i = false :=
        getLsbD_top b i (by rw [List.length_cons] at h; omega)
      rw [word, BitVec.getLsbD_xor, BitVec.getLsbD_ushiftRight, hrest, htop]
      rfl

/-- **Up to sixteen bits are taken in like one word.** By induction on the bits: what the others
add can be taken in before the shift of the first, since it leaves the lowest place empty. -/
theorem addBits_eq {bits : List Bool} (h : bits.length ≤ 16) (r : BitVec 16) :
    addBits r bits = shift^[bits.length] (r ^^^ word bits) := by
  induction bits generalizing r with
  | nil => simp [addBits, word]
  | cons b bits ih =>
      rw [List.length_cons] at h
      have hlow : (word bits).getLsbD 0 = false := getLsbD_word (by omega)
      calc addBits r (b :: bits)
          = shift^[bits.length] (shift (r ^^^ top b) ^^^ word bits) := ih (by omega) _
        _ = shift^[bits.length] (shift (r ^^^ top b) ^^^ shift (word bits >>> 1)) := by
            rw [shift_ushiftRight hlow]
        _ = shift^[bits.length] (shift (r ^^^ word (b :: bits))) := by
            rw [← shift_xor, BitVec.xor_assoc, word]
        _ = shift^[(b :: bits).length] (r ^^^ word (b :: bits)) := rfl

/-- The word of so few bits tells them apart. -/
theorem eq_of_word_eq {bits others : List Bool} (hlen : bits.length = others.length)
    (hfew : bits.length ≤ 16) (h : word bits = word others) : bits = others := by
  induction bits generalizing others with
  | nil => exact (List.eq_nil_of_length_eq_zero hlen.symm).symm
  | cons b bits ih =>
      cases others with
      | nil => cases hlen
      | cons c others =>
          have hfirst : b = c := by rw [← msb_word_cons b bits, h, msb_word_cons]
          subst hfirst
          have hlen : bits.length = others.length := by simpa using hlen
          rw [List.length_cons] at hfew
          have hrest : word bits >>> 1 = word others >>> 1 :=
            (BitVec.xor_right_inj (top b)).1 h
          have hshift := congrArg shift hrest
          rw [shift_ushiftRight (getLsbD_word (by omega)),
            shift_ushiftRight (getLsbD_word (by omega))] at hshift
          rw [ih hlen (by omega) hshift]

/-- **Up to sixteen bits next to each other** are told apart, whatever stands before and behind. -/
theorem eq_of_addBits_eq {window others after : List Bool} {r : BitVec 16}
    (hlen : window.length = others.length) (hfew : window.length ≤ 16)
    (h : addBits r (window ++ after) = addBits r (others ++ after)) : window = others := by
  rw [addBits_append, addBits_append] at h
  have hwindow := addBits_injective after h
  rw [addBits_eq hfew, addBits_eq (hlen ▸ hfew), ← hlen] at hwindow
  have hword := shift_injective.iterate _ hwindow
  exact eq_of_word_eq hlen hfew ((BitVec.xor_right_inj r).1 hword)

/-- Shifts are linear in exclusive or. -/
theorem iterate_shift_xor (n : Nat) (a b : BitVec 16) :
    shift^[n] (a ^^^ b) = shift^[n] a ^^^ shift^[n] b := by
  induction n with
  | zero => rfl
  | succ n ih =>
      rw [Function.iterate_succ_apply', Function.iterate_succ_apply', Function.iterate_succ_apply',
        ih, shift_xor]

/-- **The last four bits** are told apart by the high byte of the remainder: they are added into it,
and up to there nothing of the polynomial comes back to them. -/
theorem eq_of_highByte_eq {window others : List Bool} {r : BitVec 16}
    (hlen : window.length = others.length) (hfew : window.length ≤ 4)
    (h : addBits r window >>> 8 = addBits r others >>> 8) : window = others := by
  have hall : ∀ n < 5, ∀ x < 2 ^ n, ∀ y < 2 ^ n,
      shift^[n] (word (bitsOfNat n x)) >>> 8 = shift^[n] (word (bitsOfNat n y)) >>> 8 → x = y := by
    decide
  rw [addBits_eq (by omega), addBits_eq (by omega), ← hlen, iterate_shift_xor, iterate_shift_xor,
    BitVec.ushiftRight_xor_distrib, BitVec.ushiftRight_xor_distrib, BitVec.xor_right_inj,
    ← bitsOfNat_natOfBits window, ← bitsOfNat_natOfBits others, length_bitsOfNat, ← hlen] at h
  have hless' := natOfBits_lt others
  rw [← hlen] at hless'
  have hnumber := hall window.length (by omega) _ (natOfBits_lt window) _ hless' h
  rw [← bitsOfNat_natOfBits window, hnumber, hlen, bitsOfNat_natOfBits]

/-! ### Bytes -/

/-- Adding a byte is adding its eight bits. -/
theorem addByte_eq (r : BitVec 16) (b : UInt8) : addByte r b = addBits r (bitsOfNat 8 b.toNat) := by
  have hall : ∀ n < 256, word (bitsOfNat 8 n) = BitVec.ofNat 16 n <<< 8 := by decide +kernel
  rw [addBits_eq (by simp), hall _ b.toNat_lt, length_bitsOfNat]
  rfl

/-- **The checksum of a byte string**, bit by bit. -/
theorem checksum_eq (bytes : Bytes) : checksum bytes = addBits 0 (bitsOfBytes bytes) := by
  unfold checksum
  generalize (0 : BitVec 16) = r
  induction bytes generalizing r with
  | nil => rfl
  | cons b bytes ih =>
      rw [List.foldl_cons, ih, addByte_eq, ← addBits_append]
      rfl

/-- Bytes are determined by their bits. -/
theorem bitsOfBytes_injective : Function.Injective bitsOfBytes := by
  intro a b h
  rw [← bytesOfBits_bitsOfBytes a, h, bytesOfBits_bitsOfBytes]

theorem bitsOfBytes_append (front back : Bytes) :
    bitsOfBytes (front ++ back) = bitsOfBytes front ++ bitsOfBytes back :=
  List.flatMap_append

/-- The low byte of the checksum comes first. -/
theorem tail_eq (bytes : Bytes) : tail bytes = [UInt8.ofNat (checksum bytes).toNat,
    UInt8.ofNat ((checksum bytes).toNat / 256)] := rfl

theorem toNat_ushiftRight_eight (r : BitVec 16) : (r >>> 8).toNat = r.toNat / 256 := by
  rw [BitVec.toNat_ushiftRight, Nat.shiftRight_eq_div_pow]

/-- The second byte of the checksum is its high one. -/
theorem highByte_eq_of_ofNat_eq {a b : BitVec 16}
    (h : UInt8.ofNat (a.toNat / 256) = UInt8.ofNat (b.toNat / 256)) : a >>> 8 = b >>> 8 := by
  have hnat := congrArg UInt8.toNat h
  have ha := a.isLt
  have hb := b.isLt
  rw [UInt8.toNat_ofNat', UInt8.toNat_ofNat'] at hnat
  apply BitVec.eq_of_toNat_eq
  rw [toNat_ushiftRight_eight, toNat_ushiftRight_eight]
  omega

/-- Both bytes are the whole checksum. -/
theorem checksum_eq_of_tail_eq {a b : Bytes} (h : tail a = tail b) : checksum a = checksum b := by
  rw [tail_eq, tail_eq] at h
  obtain ⟨hlow, hrest⟩ := List.cons.inj h
  have hhigh := congrArg BitVec.toNat (highByte_eq_of_ofNat_eq (List.cons.inj hrest).1)
  have hlow := congrArg UInt8.toNat hlow
  rw [toNat_ushiftRight_eight, toNat_ushiftRight_eight] at hhigh
  rw [UInt8.toNat_ofNat', UInt8.toNat_ofNat'] at hlow
  apply BitVec.eq_of_toNat_eq
  omega

/-! ### Bits next to each other -/

section Window

variable {body body' : Bytes} {before window window' after fill fill' : List Bool}

/-- The bits may all be in the byte strings: then the checksums are the same. -/
theorem eq_of_window_within (hwindow : window.length = window'.length) (hfew : window.length ≤ 16)
    (hbody : bitsOfBytes body = before ++ (window ++ after))
    (hbody' : bitsOfBytes body' = before ++ (window' ++ after))
    (htail : bitsOfBytes (tail body) ++ fill = bitsOfBytes (tail body') ++ fill') :
    body = body' := by
  have hbits := (List.append_inj htail (by simp [tail_eq])).1
  have hchecksum := checksum_eq_of_tail_eq (bitsOfBytes_injective hbits)
  rw [checksum_eq, checksum_eq, hbody, hbody', addBits_append, addBits_append 0 before] at hchecksum
  apply bitsOfBytes_injective
  rw [hbody, hbody', eq_of_addBits_eq hwindow hfew hchecksum]

/-- Behind the first eight bits of a checksum stands its high byte. -/
theorem bits_highByte {low : List Bool} (hlow : low.length ≤ 8)
    (htail : bitsOfBytes (tail body) ++ fill = low ++ after) :
    bitsOfBytes [UInt8.ofNat ((checksum body).toNat / 256)] ++ fill
      = after.drop (8 - low.length) := by
  have hdrop := congrArg (List.drop 8) htail
  rw [tail_eq, ← List.singleton_append, bitsOfBytes_append, List.append_assoc,
    List.drop_left' (by simp), List.drop_append, List.drop_of_length_le hlow,
    List.nil_append] at hdrop
  exact hdrop

/-- The bits may be on both sides of the border: then the high bytes of the checksums are the
same. -/
theorem eq_of_window_across {low low' : List Bool} (hwindow : window.length = window'.length)
    (hfew : window.length ≤ 4) (hbody : bitsOfBytes body = before ++ window)
    (hbody' : bitsOfBytes body' = before ++ window') (hlen : low.length = low'.length)
    (hlow : low.length ≤ 8) (htail : bitsOfBytes (tail body) ++ fill = low ++ after)
    (htail' : bitsOfBytes (tail body') ++ fill' = low' ++ after) : body = body' := by
  have hhigh := bits_highByte hlow htail
  have hhigh' := bits_highByte (hlen ▸ hlow) htail'
  rw [← hlen] at hhigh'
  have hbits := (List.append_inj (hhigh.trans hhigh'.symm) (by simp)).1
  have hbyte := highByte_eq_of_ofNat_eq (List.cons.inj (bitsOfBytes_injective hbits)).1
  rw [checksum_eq, checksum_eq, hbody, hbody', addBits_append, addBits_append 0 before] at hbyte
  apply bitsOfBytes_injective
  rw [hbody, hbody', eq_of_highByte_eq hwindow hfew hbyte]

/-- Wherever the border runs through five bits, or right behind them. -/
theorem eq_of_window_split {low low' : List Bool} (hwindow : window.length = window'.length)
    (hlow : low.length = low'.length) (hfew : window.length + low.length ≤ 5)
    (hbody : bitsOfBytes body = before ++ window) (hbody' : bitsOfBytes body' = before ++ window')
    (htail : bitsOfBytes (tail body) ++ fill = low ++ after)
    (htail' : bitsOfBytes (tail body') ++ fill' = low' ++ after) : body = body' := by
  rcases Nat.lt_or_ge window.length 5 with hshort | hlong
  · exact eq_of_window_across hwindow (by omega) hbody hbody' hlow (by omega) htail htail'
  · obtain rfl := List.eq_nil_of_length_eq_zero (show low.length = 0 by omega)
    obtain rfl := List.eq_nil_of_length_eq_zero hlow.symm
    rw [← List.append_nil window] at hbody
    rw [← List.append_nil window'] at hbody'
    exact eq_of_window_within hwindow (by omega) hbody hbody' (htail.trans htail'.symm)

/-- **Byte strings with their checksums** never differ in five bits next to each other alone. The
bits stand behind the byte strings, within them, or on both sides of the border. -/
theorem eq_of_window (hlen : body.length = body'.length) (hwindow : window.length = window'.length)
    (hfew : window.length ≤ 5)
    (h : bitsOfBytes (body ++ tail body) ++ fill = before ++ (window ++ after))
    (h' : bitsOfBytes (body' ++ tail body') ++ fill' = before ++ (window' ++ after)) :
    body = body' := by
  have hbits : (bitsOfBytes body').length = (bitsOfBytes body).length := by simp [hlen]
  rw [bitsOfBytes_append, List.append_assoc] at h h'
  rcases List.append_eq_append_iff.1 h with ⟨between, rfl, -⟩ | ⟨front, hbody, hrest⟩
  · -- Nothing of the byte strings differs.
    rw [List.append_assoc] at h'
    exact bitsOfBytes_injective (List.append_inj h' hbits).1.symm
  · rcases List.append_eq_append_iff.1 hrest with ⟨back, rfl, rfl⟩ | ⟨low, rfl, htail⟩
    · -- Nothing of the checksums differs.
      have hsplit : before ++ (window' ++ (back ++ (bitsOfBytes (tail body) ++ fill)))
          = (before ++ (window' ++ back)) ++ (bitsOfBytes (tail body) ++ fill) := by
        simp only [List.append_assoc]
      rw [hsplit] at h'
      obtain ⟨hbody', htail'⟩ := List.append_inj h' (by rw [hbits, hbody]; simp [hwindow])
      exact eq_of_window_within hwindow (by omega) hbody hbody' htail'.symm
    · -- The bits are the last ones of the byte strings and the first ones of the checksums.
      rw [List.length_append] at hwindow hfew
      have hsplit : before ++ (window' ++ after)
          = (before ++ window'.take front.length) ++ (window'.drop front.length ++ after) := by
        rw [List.append_assoc, ← List.append_assoc (window'.take _), List.take_append_drop]
      have hfront : front.length = (window'.take front.length).length := by
        rw [List.length_take]
        omega
      have hlow : low.length = (window'.drop front.length).length := by
        rw [List.length_drop]
        omega
      rw [hsplit] at h'
      obtain ⟨hbody', htail'⟩ :=
        List.append_inj h' (by rw [hbits, hbody, List.length_append, List.length_append, ← hfront])
      exact eq_of_window_split hfront hlow hfew hbody hbody' htail htail'

end Window

end LedgerWire.Crc16
