/-
# Hexadecimal digits are exact

Each byte string has one text of lower-case digits. A reader takes digits of either case, and
nothing else: it reads a text as the bytes whose text it is in lower case.

* `decode_eq_ok_iff`, `decodeFixed_eq_ok_iff` — the texts that are read as given bytes.
* `decode_encode`, `decodeFixed_encode` — what bytes are shown as is one of them.
* `head?_ne_of_toLower` — a text of digits starts with one.
-/

import LedgerWire.Proofs.Text.Bits
import LedgerWire.Text.Hex

namespace LedgerWire.Hex

open LedgerWire.Text (letter ofString_eq_flatMap ofString_injective ofString_ofList)

variable {bytes : Bytes} {s : String}

/-! ### Digits -/

/-- A hexadecimal digit is one byte. -/
theorem digit_lt {n : Nat} (h : n < 16) : (digit n).toNat < 128 := by
  have hall : ∀ n < 16, (digit n).toNat < 128 := by decide
  exact hall n h

/-- Digits are written in small letters. -/
theorem toLower_digit {n : Nat} (h : n < 16) : (digit n).toLower = digit n := by
  have hall : ∀ n < 16, (digit n).toLower = digit n := by decide
  exact hall n h

/-- A character is a digit of the value if it is the value's lower-case digit in lower case. -/
theorem value?_letter_eq_some_iff {c : Char} {n : Nat} (hc : c.toNat < 128) (hn : n < 16) :
    value? (letter c) = some n ↔ c.toLower = digit n := by
  have hall : ∀ k < 128, ∀ n < 16,
      value? (letter (Char.ofNat k)) = some n ↔ (Char.ofNat k).toLower = digit n := by
    decide
  have hiff := hall c.toNat hc n hn
  rwa [Char.ofNat_toNat] at hiff

/-- Only bytes of ASCII characters have values, which are those of a digit. -/
theorem lt_of_value?_eq_some {b : UInt8} {n : Nat} (h : value? b = some n) :
    b.toNat < 128 ∧ n < 16 := by
  simp only [value?] at h
  split at h
  · cases h
    omega
  · split at h
    · cases h
      omega
    · split at h
      · cases h
        omega
      · cases h

/-- A byte with a value is that of a digit, in one case or the other. -/
theorem exists_char_of_value? {b : UInt8} {n : Nat} (h : value? b = some n) :
    ∃ c : Char, c.toNat < 128 ∧ b = letter c ∧ c.toLower = digit n := by
  obtain ⟨hb, hn⟩ := lt_of_value?_eq_some h
  have hchar : (Char.ofNat b.toNat).toNat = b.toNat := by
    have hall : ∀ k < 128, (Char.ofNat k).toNat = k := by decide
    exact hall _ hb
  have hletter : b = letter (Char.ofNat b.toNat) := by
    rw [letter, hchar, UInt8.ofNat_toNat]
  have hlt : (Char.ofNat b.toNat).toNat < 128 := by rwa [hchar]
  rw [hletter] at h
  exact ⟨_, hlt, hletter, (value?_letter_eq_some_iff hlt hn).1 h⟩

/-- Lower case is ASCII for ASCII characters only. -/
theorem lt_of_toLower_lt {c : Char} (h : c.toLower.toNat < 128) : c.toNat < 128 := by
  unfold Char.toLower at h
  split at h
  · rename_i hupper
    have hle : c.toNat ≤ 90 := UInt32.le_iff_toNat_le.1 hupper.2
    omega
  · exact h

/-- A digit has its value in either case. -/
theorem value?_letter_of_toLower {c : Char} {n : Nat} (hn : n < 16) (h : c.toLower = digit n) :
    value? (letter c) = some n :=
  (value?_letter_eq_some_iff (lt_of_toLower_lt (h ▸ digit_lt hn)) hn).2 h

/-! ### Texts of digits -/

/-- Bytes are shown by digits alone. -/
theorem exists_digit_of_mem_encode {c : Char} (h : c ∈ bytes.flatMap encodeByte) :
    ∃ n < 16, c = digit n := by
  obtain ⟨b, -, hdigit⟩ := List.mem_flatMap.1 h
  have hb := b.toNat_lt
  rcases List.mem_pair.1 hdigit with rfl | rfl
  · exact ⟨b.toNat / 16, by omega, rfl⟩
  · exact ⟨b.toNat % 16, by omega, rfl⟩

/-- The digits of the byte that two digits spell are these two. -/
theorem encodeByte_ofNat {high low : Nat} (hhigh : high < 16) (hlow : low < 16) :
    encodeByte (UInt8.ofNat (16 * high + low)) = [digit high, digit low] := by
  have hlt : 16 * high + low < UInt8.size := by
    have hsize : UInt8.size = 256 := rfl
    omega
  have hdiv : (16 * high + low) / 16 = high := by omega
  have hmod : (16 * high + low) % 16 = low := by omega
  rw [encodeByte, UInt8.toNat_ofNat_of_lt' hlt, hdiv, hmod]

@[simp] theorem length_flatMap_encodeByte (bytes : Bytes) :
    (bytes.flatMap encodeByte).length = 2 * bytes.length := by
  induction bytes with
  | nil => rfl
  | cons b rest ih =>
      rw [List.flatMap_cons, List.length_append, ih]
      simp [encodeByte]
      omega

/-- Bytes are written one after another. -/
theorem encode_append (front back : Bytes) :
    encode (front ++ back) = encode front ++ encode back := by
  rw [encode, List.flatMap_append, String.ofList_append]
  rfl

/-- The characters of a text in lower case. -/
theorem toList_toLower (s : String) : s.toLower.toList = s.toList.map Char.toLower :=
  String.toList_map

/-- What bytes are shown as is in lower case. -/
theorem toLower_encode (bytes : Bytes) : (encode bytes).toLower = encode bytes := by
  apply String.toList_injective
  rw [toList_toLower, encode, String.toList_ofList]
  refine (List.map_congr_left fun c hc => ?_).trans (List.map_id _)
  obtain ⟨n, hn, rfl⟩ := exists_digit_of_mem_encode hc
  exact toLower_digit hn

/-- A text in lower case is made of digits if and only if its characters are. -/
theorem toLower_eq_encode_iff :
    s.toLower = encode bytes ↔ s.toList.map Char.toLower = bytes.flatMap encodeByte := by
  rw [← String.toList_inj, toList_toLower, encode, String.toList_ofList]

/-- No text of digits starts with another character, whichever its case. -/
theorem head?_ne_of_toLower {c : Char} (hc : ∀ n < 16, digit n ≠ c.toLower)
    (h : s.toLower = encode bytes) : s.toList.head? ≠ some c := by
  intro hhead
  have hmem : c.toLower ∈ s.toList.map Char.toLower :=
    List.mem_map_of_mem (List.mem_of_mem_head? hhead)
  rw [toLower_eq_encode_iff.1 h] at hmem
  obtain ⟨n, hn, hdigit⟩ := exists_digit_of_mem_encode hmem
  exact hc n hn hdigit.symm

/-! ### Reading -/

/-- What is read spells the bytes, digit by digit. -/
theorem exists_chars_of_decodePairs {text : Bytes} {position : Nat}
    (h : decodePairs text position = .ok bytes) :
    ∃ cs : List Char, (∀ c ∈ cs, c.toNat < 128) ∧ text = cs.map letter
      ∧ cs.map Char.toLower = bytes.flatMap encodeByte := by
  fun_induction decodePairs text position generalizing bytes with
  | case1 position =>
      cases h
      exact ⟨[], nofun, rfl, rfl⟩
  | case2 b position => cases h
  | case3 high low rest position hhigh => cases h
  | case4 high low rest position h₁ hhigh hlow => cases h
  | case5 high low rest position v w hlow hhigh ih =>
      cases hrest : decodePairs rest (position + 2) with
      | error fault =>
          rw [hrest] at h
          cases h
      | ok tail =>
          rw [hrest] at h
          cases h
          obtain ⟨c, hc, rfl, hlower⟩ := exists_char_of_value? hhigh
          obtain ⟨c', hc', rfl, hlower'⟩ := exists_char_of_value? hlow
          obtain ⟨cs, hcs, rfl, htail⟩ := ih hrest
          have hv := (lt_of_value?_eq_some hhigh).2
          have hw := (lt_of_value?_eq_some hlow).2
          refine ⟨c :: c' :: cs, ?_, rfl, ?_⟩
          · exact List.forall_mem_cons.2 ⟨hc, List.forall_mem_cons.2 ⟨hc', hcs⟩⟩
          · rw [List.map_cons, List.map_cons, htail, hlower, hlower', List.flatMap_cons,
              encodeByte_ofNat hv hw]
            rfl

/-- Characters that are the digits of bytes in lower case are read as these bytes. -/
theorem decodePairs_map_letter {cs : List Char} (h : cs.map Char.toLower = bytes.flatMap encodeByte)
    (position : Nat) : decodePairs (cs.map letter) position = .ok bytes := by
  induction bytes generalizing cs position with
  | nil =>
      obtain rfl : cs = [] := List.map_eq_nil_iff.1 h
      rfl
  | cons b rest ih =>
      have hb := b.toNat_lt
      have hbyte : UInt8.ofNat (16 * (b.toNat / 16) + b.toNat % 16) = b := by
        rw [Nat.div_add_mod]
        exact UInt8.ofNat_toNat
      rw [List.flatMap_cons] at h
      obtain ⟨high, _, rfl, hhigh, h⟩ := List.map_eq_cons_iff.1 h
      obtain ⟨low, back, rfl, hlow, hback⟩ := List.map_eq_cons_iff.1 h
      have hvalue := (value?_letter_of_toLower (by omega) hhigh)
      have hvalue' := (value?_letter_of_toLower (by omega) hlow)
      rw [List.map_cons, List.map_cons, decodePairs, hvalue, hvalue']
      simp only [ih hback, hbyte]
      rfl

/-- The characters of a text of digits are one byte each. -/
theorem ofString_of_toLower (h : s.toLower = encode bytes) :
    Bytes.ofString s = s.toList.map letter := by
  rw [toLower_eq_encode_iff] at h
  conv_lhs => rw [← String.ofList_toList (s := s)]
  refine ofString_ofList fun c hc => ?_
  have hlower : c.toLower ∈ bytes.flatMap encodeByte := h ▸ List.mem_map_of_mem hc
  obtain ⟨n, hn, hdigit⟩ := exists_digit_of_mem_encode hlower
  exact lt_of_toLower_lt (hdigit ▸ digit_lt hn)

/-- A text of digits takes two bytes for each that it spells. -/
theorem utf8ByteSize_of_toLower (h : s.toLower = encode bytes) :
    s.utf8ByteSize = 2 * bytes.length := by
  rw [← Text.length_ofString, ofString_of_toLower h, List.length_map]
  rw [toLower_eq_encode_iff] at h
  rw [← List.length_map Char.toLower, h, length_flatMap_encodeByte]

/-- **Pairs of digits are read** exactly if they are the bytes' own, in either case. -/
theorem decodePairs_eq_ok_iff {position : Nat} :
    decodePairs (Bytes.ofString s) position = .ok bytes ↔ s.toLower = encode bytes := by
  constructor
  · intro h
    obtain ⟨cs, hcs, htext, hlower⟩ := exists_chars_of_decodePairs h
    rw [← ofString_ofList hcs] at htext
    rw [toLower_eq_encode_iff, ofString_injective htext, String.toList_ofList, hlower]
  · intro h
    rw [ofString_of_toLower h]
    exact decodePairs_map_letter (toLower_eq_encode_iff.1 h) position

/-- **A text is read as bytes exactly if it is their digits**, in whichever case. -/
theorem decode_eq_ok_iff : decode s = .ok bytes ↔ s.toLower = encode bytes := by
  unfold decode
  simp only [Text.length_ofString]
  by_cases hodd : s.utf8ByteSize % 2 = 1
  · rw [if_pos hodd]
    refine iff_of_false nofun fun h => ?_
    rw [utf8ByteSize_of_toLower h] at hodd
    omega
  · rw [if_neg hodd]
    exact decodePairs_eq_ok_iff

/-- **So are texts that must spell so many bytes.** -/
theorem decodeFixed_eq_ok_iff {n : Nat} {v : Vector UInt8 n} :
    decodeFixed n s = .ok v ↔ s.toLower = encode v.toList := by
  unfold decodeFixed
  simp only [Text.length_ofString]
  constructor
  · intro h
    split at h
    · cases h
    · split at h
      · cases h
      · cases hread : decodePairs (Bytes.ofString s) 0 with
        | error fault =>
            rw [hread] at h
            cases h
        | ok plain =>
            rw [hread] at h
            cases hfixed : Bytes.fixed? n plain with
            | none =>
                simp only [bind, Except.bind, hfixed] at h
                cases h
            | some read =>
                simp only [bind, Except.bind, hfixed] at h
                cases h
                rw [← Bytes.fixed?_eq_some_iff.1 hfixed]
                exact decodePairs_eq_ok_iff.1 hread
  · intro h
    have hsize := utf8ByteSize_of_toLower h
    rw [Vector.length_toList] at hsize
    rw [if_neg (by omega), if_neg (by omega), decodePairs_eq_ok_iff.2 h]
    simp only [bind, Except.bind, Bytes.fixed?_toList]
    rfl

/-- **Bytes are read from their digits.** -/
theorem decode_encode (bytes : Bytes) : decode (encode bytes) = .ok bytes :=
  decode_eq_ok_iff.2 (toLower_encode bytes)

/-- **So many bytes are read from their digits.** -/
theorem decodeFixed_encode {n : Nat} (v : Vector UInt8 n) :
    decodeFixed n (encode v.toList) = .ok v :=
  decodeFixed_eq_ok_iff.2 (toLower_encode v.toList)

end LedgerWire.Hex
