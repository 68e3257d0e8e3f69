/-
# Base 32 is exact

Each byte string has one text in base 32, and no other text is read. The first symbol shows the five
highest bits of the first byte.

* `decode_eq_ok_iff` — a text spells bytes exactly when it is the text of these bytes.
* `head?_encode` — the first character of a text.
-/

import LedgerWire.Proofs.Text.Bits
import LedgerWire.Text.Base32

namespace LedgerWire.Base32

open LedgerWire.Text

variable {bytes : Bytes}

/-- Thirty-two different symbols of five bits each. -/
theorem lawful_alphabet : alphabet.Lawful where
  width_pos := by decide
  width_le := by decide
  length_symbols := by decide
  ascii c hc := by
    have hall : alphabet.symbols.all (fun c => decide (c.toNat < 128)) = true := by decide
    exact of_decide_eq_true (List.all_eq_true.1 hall c hc)
  nodup := by decide

/-- The bytes of a text are those of its symbols. -/
theorem ofString_encode (bytes : Bytes) :
    Bytes.ofString (encode bytes) = (alphabet.encode bytes).map letter :=
  ofString_ofList fun _ hc => lawful_alphabet.ascii _ (lawful_alphabet.mem_symbols_of_mem_encode hc)

/-- The length of a text: its bits are those of its bytes, filled up to whole symbols. -/
theorem utf8ByteSize_encode (bytes : Bytes) :
    (encode bytes).utf8ByteSize * 5 = bytes.length * 8 + alphabet.fill (bytes.length * 8) := by
  rw [← length_ofString, ofString_encode, List.length_map]
  exact lawful_alphabet.length_encode bytes

/-! ### Reading -/

/-- The lengths that are refused are those at which a whole symbol would only fill up. -/
theorem isImpossibleLength_eq_false_iff {length : Nat} :
    isImpossibleLength length = false ↔ length * 5 % 8 < 5 := by
  have hall : ∀ r < 8, ((r ≠ 1 ∧ r ≠ 3) ∧ r ≠ 6) ↔ r * 5 % 8 < 5 := by decide
  have hmod : length * 5 % 8 = length % 8 * 5 % 8 := by omega
  rw [hmod, ← hall (length % 8) (Nat.mod_lt _ (by decide))]
  simp only [isImpossibleLength, Bool.or_eq_false_iff, decide_eq_false_iff_not]

/-- The decoder is that of the alphabet, for lengths that leave less than a symbol over. -/
theorem decode_eq_ok_iff_alphabet {text : Bytes} :
    decode text = .ok bytes ↔ text.length * 5 % 8 < 5 ∧ alphabet.decode text = .ok bytes := by
  rw [← isImpossibleLength_eq_false_iff]
  unfold decode
  cases himpossible : isImpossibleLength text.length with
  | true => simp
  | false =>
      rcases hdecode : alphabet.decode text with (_ | _) | read
      · simp
      · simp
      · simp

/-- **A text spells bytes exactly when it is the text of these bytes.** -/
theorem decode_eq_ok_iff {t : String} :
    decode (Bytes.ofString t) = .ok bytes ↔ t = encode bytes := by
  rw [decode_eq_ok_iff_alphabet]
  constructor
  · rintro ⟨hlen, hdecode⟩
    refine ofString_injective ?_
    rw [ofString_encode]
    exact (lawful_alphabet.encode_of_decode hdecode hlen).symm
  · rintro rfl
    rw [ofString_encode, List.length_map]
    exact ⟨lawful_alphabet.length_encode_mod bytes, lawful_alphabet.decode_encode bytes⟩

/-! ### The first symbol -/

/-- **The first symbol of a text is that of the five highest bits.** -/
theorem head?_encode (b : UInt8) (rest : Bytes) :
    (encode (b :: rest)).toList.head? = some (alphabet.symbol (b.toNat / 8)) := by
  have hlt := b.toNat_lt
  have hbits : bitsOfNat 8 b.toNat = bitsOfNat 5 (b.toNat / 8) ++ bitsOfNat 3 b.toNat := by
    simp [bitsOfNat, Nat.div_div_eq_div_mul]
  have hfilled : alphabet.filled (b :: rest) = bitsOfNat 5 (b.toNat / 8)
      ++ (bitsOfNat 3 b.toNat ++ (bitsOfBytes rest
        ++ List.replicate (alphabet.fill ((b :: rest).length * 8)) false)) := by
    rw [Alphabet.filled, bitsOfBytes, List.flatMap_cons, hbits]
    simp only [List.append_assoc]
    rfl
  have hpiece : (bitsOfNat 5 (b.toNat / 8)).length = alphabet.width - 1 + 1 := length_bitsOfNat ..
  have hvalue : natOfBits (bitsOfNat 5 (b.toNat / 8)) = b.toNat / 8 := by
    rw [natOfBits_bitsOfNat]
    exact Nat.mod_eq_of_lt (by omega)
  rw [encode, String.toList_ofList, Alphabet.encode_eq, hfilled, pieces_append _ hpiece]
  simp [hvalue]

end LedgerWire.Base32
