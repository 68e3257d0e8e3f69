/-
# Base 64 is exact

Each byte string has one text in base 64, and no other text is read.

* `decode?_eq_some_iff` — a text spells bytes exactly when it is the text of these bytes.
-/

import Mathlib.Data.List.TakeWhile
import LedgerWire.Proofs.Text.Bits
import LedgerWire.Text.Base64

namespace LedgerWire.Base64

open LedgerWire.Text

variable {t : String} {bytes : Bytes}

def pad : UInt8 := letter '='

/-- The symbols are one byte of text each, and none is the equals sign. -/
theorem symbol_facts {c : Char} (hc : c ∈ alphabet.symbols) : c.toNat < 128 ∧ letter c ≠ pad := by
  have hall : alphabet.symbols.all (fun c => decide (c.toNat < 128 ∧ letter c ≠ pad)) = true := by
    decide
  exact of_decide_eq_true (List.all_eq_true.1 hall c hc)

/-- Sixty-four different symbols of six bits each. -/
theorem lawful_alphabet : alphabet.Lawful where
  width_pos := by decide
  width_le := by decide
  length_symbols := by decide
  ascii _ hc := (symbol_facts hc).1
  nodup := by decide

/-- No symbol of the alphabet is the equals sign. -/
theorem letter_ne_pad {c : Char} (hc : c ∈ alphabet.encode bytes) : letter c ≠ pad :=
  (symbol_facts (lawful_alphabet.mem_symbols_of_mem_encode hc)).2

/-- The bytes of a text: its symbols and the equals signs that complete them. -/
theorem ofString_encode (bytes : Bytes) :
    Bytes.ofString (encode bytes)
      = (alphabet.encode bytes).map letter
        ++ List.replicate (padding (alphabet.encode bytes).length) pad := by
  have hascii : ∀ c ∈ alphabet.encode bytes
      ++ List.replicate (padding (alphabet.encode bytes).length) '=', c.toNat < 128 := by
    intro c hc
    rcases List.mem_append.1 hc with hsymbol | hpad
    · exact lawful_alphabet.ascii c (lawful_alphabet.mem_symbols_of_mem_encode hsymbol)
    · rw [(List.mem_replicate.1 hpad).2]
      decide
  rw [encode, ofString_ofList hascii, List.map_append, List.map_replicate]
  rfl

/-! ### Reading -/

private def isPad (b : UInt8) : Bool := b.toNat = '='.toNat

private theorem isPad_iff {b : UInt8} : isPad b = true ↔ b = pad := by
  rw [isPad, decide_eq_true_iff]
  exact UInt8.toNat_inj (b := pad)

private theorem not_isPad_iff {b : UInt8} : (!isPad b) = true ↔ b ≠ pad := by
  rw [Bool.not_eq_true', ← Bool.not_eq_true, isPad_iff]

/-- The decoder takes the symbols up to the first equals sign, and holds the rest against them. -/
private theorem decode?_eq (t : String) :
    decode? t =
      let symbols := (Bytes.ofString t).takeWhile (!isPad ·)
      let pads := (Bytes.ofString t).dropWhile (!isPad ·)
      if symbols.length % 4 = 1 then none
      else if pads.length ≠ padding symbols.length || !pads.all isPad then none
      else (alphabet.decode symbols).toOption := rfl

/-- A result that is there once its error is forgotten had no error. -/
private theorem eq_ok_of_toOption {ε α : Type} {r : Except ε α} {a : α}
    (h : r.toOption = some a) : r = .ok a := by
  cases r with
  | error e => cases h
  | ok a' =>
      cases h
      rfl

/-- A text is read as symbols and as many equals signs as complete them. -/
theorem decode?_eq_some_iff_parts :
    decode? t = some bytes ↔ ∃ symbols, symbols.length % 4 ≠ 1 ∧ (∀ b ∈ symbols, b ≠ pad)
      ∧ Bytes.ofString t = symbols ++ List.replicate (padding symbols.length) pad
      ∧ alphabet.decode symbols = .ok bytes := by
  rw [decode?_eq]
  constructor
  · intro h
    simp only at h
    split at h
    · cases h
    · rename_i hone
      split at h
      · cases h
      · rename_i hpads
        simp only [Bool.or_eq_true, not_or, decide_eq_true_iff, not_not, Bool.not_eq_true',
          Bool.not_eq_false, List.all_eq_true] at hpads
        obtain ⟨hcount, hall⟩ := hpads
        have hreplicate := List.eq_replicate_iff.2 ⟨hcount, fun b hb => isPad_iff.1 (hall b hb)⟩
        refine ⟨(Bytes.ofString t).takeWhile (!isPad ·), hone, fun b hb => ?_, ?_,
          eq_ok_of_toOption h⟩
        · have hsymbol := List.mem_takeWhile_imp hb
          exact not_isPad_iff.1 hsymbol
        · rw [← hreplicate]
          exact List.takeWhile_append_dropWhile.symm
  · rintro ⟨symbols, hone, hsymbols, ht, hdecode⟩
    have hfront : ∀ b ∈ symbols, (!isPad b) = true := fun b hb => not_isPad_iff.2 (hsymbols b hb)
    have hpad : isPad pad = true := rfl
    -- No symbol is an equals sign, so the cut falls right behind the symbols.
    have htake : (Bytes.ofString t).takeWhile (!isPad ·) = symbols := by
      rw [ht, List.takeWhile_append_of_pos hfront, List.takeWhile_replicate, hpad]
      exact List.append_nil symbols
    have hdrop : (Bytes.ofString t).dropWhile (!isPad ·)
        = List.replicate (padding symbols.length) pad := by
      rw [ht, List.dropWhile_append_of_pos hfront, List.dropWhile_replicate, hpad]
      rfl
    have hall : (List.replicate (padding symbols.length) pad).all isPad = true :=
      List.all_eq_true.2 fun b hb => isPad_iff.2 (List.mem_replicate.1 hb).2
    simp only [htake, hdrop, if_neg hone, List.length_replicate, hall, hdecode]
    rw [if_neg (by simp)]
    rfl

/-- **A text spells bytes exactly when it is the text of these bytes.** -/
theorem decode?_eq_some_iff : decode? t = some bytes ↔ t = encode bytes := by
  rw [decode?_eq_some_iff_parts]
  constructor
  · rintro ⟨symbols, hone, -, ht, hdecode⟩
    -- One symbol alone in a group is the one length that would leave a whole symbol over.
    have hlen : symbols.length * alphabet.width % 8 < alphabet.width := by
      show symbols.length * 6 % 8 < 6
      omega
    have hsymbols := lawful_alphabet.encode_of_decode hdecode hlen
    have hcount : (alphabet.encode bytes).length = symbols.length := by
      rw [← hsymbols, List.length_map]
    refine ofString_injective ?_
    rw [ofString_encode, hsymbols, hcount, ht]
  · rintro rfl
    have hlen : (alphabet.encode bytes).length * 6 % 8 < 6 :=
      lawful_alphabet.length_encode_mod bytes
    refine ⟨(alphabet.encode bytes).map letter, ?_, ?_, ?_, lawful_alphabet.decode_encode bytes⟩
    · rw [List.length_map]
      omega
    · intro b hb
      obtain ⟨c, hc, rfl⟩ := List.mem_map.1 hb
      exact letter_ne_pad hc
    · rw [ofString_encode, List.length_map]

end LedgerWire.Base64
