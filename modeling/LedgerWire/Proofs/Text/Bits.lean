/-
# Texts that spell bytes spell them exactly

Regrouping bits loses none of them: a string of bits whose length is a multiple of the width and a
list of numbers below `2 ^ width` determine each other. Bytes are such numbers of width eight, and
the symbols of a text such numbers of its alphabet's width.

* `bitsOfNat_natOfBits`, `natOfBits_bitsOfNat` — bits and the numbers they spell.
* `numbers_of_bits`, `bits_of_numbers` — the same for strings of them.
* `Alphabet.Lawful` — as many symbols as there are values, all different, each one byte of text.
* `Lawful.filled_eq` — the bits of a byte string are those of the characters of its text.
* `Lawful.decode_encode`, `Lawful.encode_of_decode` — a byte string is spelled by its text, and by
  no other text of a length that a byte string needs.
-/

import Mathlib.Data.List.GetD
import Mathlib.Data.List.Nodup
import Mathlib.Data.Nat.ModEq
import LedgerWire.Text.Bits

namespace LedgerWire.Text

/-! ### Bits and numbers -/

@[simp] theorem length_bitsOfNat (width n : Nat) : (bitsOfNat width n).length = width := by
  induction width generalizing n with
  | zero => rfl
  | succ width ih => simp [bitsOfNat, ih]

/-- One more bit at the end is one more digit to base two. -/
theorem natOfBits_append_singleton (bits : List Bool) (b : Bool) :
    natOfBits (bits ++ [b]) = 2 * natOfBits bits + b.toNat := by
  simp [natOfBits]

/-- Writing a number in too few bits keeps it modulo their power. -/
theorem natOfBits_bitsOfNat (width n : Nat) : natOfBits (bitsOfNat width n) = n % 2 ^ width := by
  induction width generalizing n with
  | zero => simp [bitsOfNat, natOfBits, Nat.mod_one]
  | succ width ih =>
      have hbit : (n % 2 == 1).toNat = n % 2 := by
        rcases Nat.mod_two_eq_zero_or_one n with h | h <;> rw [h] <;> rfl
      rw [bitsOfNat, natOfBits_append_singleton, ih, hbit, Nat.pow_succ', Nat.mod_mul]
      omega

/-- Bits are the digits of their number in their own width. -/
theorem bitsOfNat_natOfBits (bits : List Bool) : bitsOfNat bits.length (natOfBits bits) = bits := by
  generalize hlen : bits.length = width
  induction width generalizing bits with
  | zero => simpa [bitsOfNat] using (List.eq_nil_of_length_eq_zero hlen).symm
  | succ width ih =>
      obtain ⟨front, b, rfl⟩ :=
        (List.eq_nil_or_concat bits).resolve_left (by rintro rfl; simp at hlen)
      have hdiv : (2 * natOfBits front + b.toNat) / 2 = natOfBits front := by
        cases b <;> simp only [Bool.toNat_false, Bool.toNat_true] <;> omega
      have hmod : ((2 * natOfBits front + b.toNat) % 2 == 1) = b := by
        cases b <;> simp [Nat.add_mod]
      rw [List.concat_eq_append, bitsOfNat, natOfBits_append_singleton, hdiv, hmod,
        ih front (by simpa using hlen)]

/-- Some bits count less than their power of two. -/
theorem natOfBits_lt (bits : List Bool) : natOfBits bits < 2 ^ bits.length := by
  have h := natOfBits_bitsOfNat bits.length (natOfBits bits)
  rw [bitsOfNat_natOfBits] at h
  rw [h]
  exact Nat.mod_lt _ (Nat.two_pow_pos _)

/-! ### Pieces -/

section Pieces

variable {α : Type} {size : Nat}

@[simp] theorem pieces_nil : pieces size ([] : List α) = [] := by rw [pieces]

/-- Cutting takes off one whole piece at a time. -/
theorem pieces_append {piece : List α} (rest : List α) (h : piece.length = size + 1) :
    pieces size (piece ++ rest) = piece :: pieces size rest := by
  cases piece with
  | nil => simp at h
  | cons x xs =>
      have hlen : xs.length = size := by simpa using h
      rw [List.cons_append, pieces, List.take_left' hlen, List.drop_left' hlen]

/-- A list of the length of whole pieces is those pieces joined. -/
theorem pieces_induction {motive : List α → Prop} (nil : motive [])
    (append : ∀ piece rest, piece.length = size + 1 → size + 1 ∣ rest.length → motive rest →
      motive (piece ++ rest)) {xs : List α} (h : size + 1 ∣ xs.length) : motive xs := by
  obtain ⟨count, hcount⟩ := h
  induction count generalizing xs with
  | zero =>
      obtain rfl : xs = [] := List.eq_nil_of_length_eq_zero (by simpa using hcount)
      exact nil
  | succ count ih =>
      have hdrop : (xs.drop (size + 1)).length = (size + 1) * count := by
        rw [List.length_drop, hcount, Nat.mul_succ, Nat.add_sub_cancel]
      have htake : (xs.take (size + 1)).length = size + 1 := by
        rw [List.length_take, hcount, Nat.mul_succ]
        omega
      rw [← List.take_append_drop (size + 1) xs]
      exact append _ _ htake ⟨count, hdrop⟩ (ih hdrop)

end Pieces

/-! ### Strings of numbers of one width -/

section Numbers

variable {width : Nat}

/-- **Numbers of one width are spelled by their bits.** -/
theorem numbers_of_bits (hwidth : 0 < width) {vs : List Nat} (hvs : ∀ v ∈ vs, v < 2 ^ width) :
    (pieces (width - 1) (vs.flatMap (bitsOfNat width))).map natOfBits = vs := by
  have hsize : width = width - 1 + 1 := by omega
  induction vs with
  | nil => simp
  | cons v rest ih =>
      obtain ⟨hv, hrest⟩ := List.forall_mem_cons.1 hvs
      have hlen : (bitsOfNat width v).length = width - 1 + 1 := by simpa using hsize
      rw [List.flatMap_cons, pieces_append _ hlen, List.map_cons, natOfBits_bitsOfNat,
        Nat.mod_eq_of_lt hv, ih hrest]

/-- **Bits are spelled again by the numbers that they spell.** -/
theorem bits_of_numbers (hwidth : 0 < width) {bits : List Bool} (h : width ∣ bits.length) :
    ((pieces (width - 1) bits).map natOfBits).flatMap (bitsOfNat width) = bits := by
  have hsize : width - 1 + 1 = width := by omega
  rw [← hsize] at h
  refine pieces_induction
    (motive := fun bits =>
      ((pieces (width - 1) bits).map natOfBits).flatMap (bitsOfNat width) = bits)
    (by simp) (fun piece rest hpiece _ ih => ?_) h
  have hbits : bitsOfNat width (natOfBits piece) = piece := by
    rw [← hsize, ← hpiece, bitsOfNat_natOfBits]
  rw [pieces_append rest hpiece, List.map_cons, List.flatMap_cons, hbits, ih]

/-- Pieces of one width have numbers of that width. -/
theorem numbers_lt (hwidth : 0 < width) {bits : List Bool} (h : width ∣ bits.length) :
    ∀ v ∈ (pieces (width - 1) bits).map natOfBits, v < 2 ^ width := by
  have hsize : width - 1 + 1 = width := by omega
  rw [← hsize] at h
  refine pieces_induction
    (motive := fun bits => ∀ v ∈ (pieces (width - 1) bits).map natOfBits, v < 2 ^ width)
    (by simp) (fun piece rest hpiece _ ih => ?_) h
  rw [pieces_append rest hpiece, List.map_cons]
  refine List.forall_mem_cons.2 ⟨?_, ih⟩
  have hlt := natOfBits_lt piece
  rwa [hpiece, hsize] at hlt

theorem length_flatMap_bits (vs : List Nat) :
    (vs.flatMap (bitsOfNat width)).length = vs.length * width := by
  induction vs with
  | nil => simp
  | cons v rest ih => simp [ih, Nat.succ_mul, Nat.add_comm]

end Numbers

/-! ### Bytes -/

/-- The bits of some bytes are eight bits a byte, in order. -/
theorem bitsOfBytes_eq (bytes : Bytes) :
    bitsOfBytes bytes = (bytes.map UInt8.toNat).flatMap (bitsOfNat 8) := by
  rw [List.flatMap_map]
  rfl

/-- The bytes of some bits are the numbers of their pieces of eight. -/
theorem bytesOfBits_eq (bits : List Bool) :
    bytesOfBits bits = ((pieces 7 bits).map natOfBits).map UInt8.ofNat := by
  rw [List.map_map]
  rfl

@[simp] theorem length_bitsOfBytes (bytes : Bytes) :
    (bitsOfBytes bytes).length = bytes.length * 8 := by
  rw [bitsOfBytes_eq, length_flatMap_bits, List.length_map]

/-- **Bytes come back from their bits.** -/
theorem bytesOfBits_bitsOfBytes (bytes : Bytes) : bytesOfBits (bitsOfBytes bytes) = bytes := by
  have hlt : ∀ v ∈ bytes.map UInt8.toNat, v < 2 ^ 8 := by
    intro v hv
    obtain ⟨b, -, rfl⟩ := List.mem_map.1 hv
    exact b.toNat_lt
  rw [bytesOfBits_eq, bitsOfBytes_eq, numbers_of_bits (by decide) hlt, List.map_map]
  exact (List.map_congr_left fun b _ => UInt8.ofNat_toNat).trans (List.map_id bytes)

/-- Bits come back from their bytes if these are full. -/
theorem bitsOfBytes_bytesOfBits {bits : List Bool} (h : 8 ∣ bits.length) :
    bitsOfBytes (bytesOfBits bits) = bits := by
  have hwidth : (0 : Nat) < 8 := by decide
  have hback : ((((pieces 7 bits).map natOfBits).map UInt8.ofNat).map UInt8.toNat)
      = (pieces 7 bits).map natOfBits := by
    rw [List.map_map]
    refine (List.map_congr_left fun v hv => ?_).trans (List.map_id _)
    exact UInt8.toNat_ofNat_of_lt (numbers_lt hwidth h v hv)
  rw [bitsOfBytes_eq, bytesOfBits_eq, hback]
  exact bits_of_numbers hwidth h

/-! ### Texts of one byte for a character -/

/-- The byte that a character is in a text, if it is only one. -/
def letter (c : Char) : UInt8 := UInt8.ofNat c.toNat

theorem toNat_letter {c : Char} (h : c.toNat < 128) : (letter c).toNat = c.toNat :=
  UInt8.toNat_ofNat_of_lt (Nat.lt_trans h (by decide))

/-- The bytes of a text are those of its characters. -/
theorem ofString_eq_flatMap (s : String) :
    Bytes.ofString s = s.toList.flatMap String.utf8EncodeChar := by
  unfold Bytes.ofString
  conv_lhs => rw [← String.ofList_toList (s := s)]
  rw [String.toUTF8_eq_toByteArray, String.toByteArray_ofList, List.utf8Encode,
    List.data_toByteArray, List.toList_toArray]

theorem length_ofString (s : String) : (Bytes.ofString s).length = s.utf8ByteSize := by
  unfold Bytes.ofString
  simp

/-- A character of the ASCII range is one byte. -/
theorem utf8EncodeChar_of_lt {c : Char} (h : c.toNat < 128) :
    String.utf8EncodeChar c = [letter c] := by
  have hsize : c.utf8Size = 1 := Char.utf8Size_eq_one_iff.2 (Nat.le_of_lt_succ h)
  rw [String.utf8EncodeChar_eq_singleton hsize]
  rfl

/-- A text of ASCII characters has a byte for each. -/
theorem ofString_ofList {cs : List Char} (h : ∀ c ∈ cs, c.toNat < 128) :
    Bytes.ofString (String.ofList cs) = cs.map letter := by
  rw [ofString_eq_flatMap, String.toList_ofList]
  induction cs with
  | nil => rfl
  | cons c rest ih =>
      obtain ⟨hc, hrest⟩ := List.forall_mem_cons.1 h
      rw [List.flatMap_cons, ih hrest, utf8EncodeChar_of_lt hc]
      rfl

/-- An ASCII character of a text is among its bytes. -/
theorem letter_mem_ofString {s : String} {c : Char} (hc : c.toNat < 128) (h : c ∈ s.toList) :
    letter c ∈ Bytes.ofString s := by
  rw [ofString_eq_flatMap]
  exact List.mem_flatMap.2 ⟨c, h, by simp [utf8EncodeChar_of_lt hc]⟩

/-- A text is determined by its bytes. -/
theorem ofString_injective {s t : String} (h : Bytes.ofString s = Bytes.ofString t) : s = t :=
  Option.some.inj ((Bytes.toText?_eq_some_iff.2 rfl).symm.trans (Bytes.toText?_eq_some_iff.2 h))

/-! ### Alphabets -/

namespace Alphabet

variable {alphabet : Alphabet} {text bytes : Bytes} {vs : List Nat}

/-- There are as many symbols as values, all different, and each is one byte of text. -/
structure Lawful (alphabet : Alphabet) : Prop where
  width_pos : 0 < alphabet.width
  width_le : alphabet.width ≤ 8
  length_symbols : alphabet.symbols.length = 2 ^ alphabet.width
  ascii : ∀ c ∈ alphabet.symbols, c.toNat < 128
  nodup : alphabet.symbols.Nodup

theorem symbol_eq_getElem {v : Nat} (h : v < alphabet.symbols.length) :
    alphabet.symbol v = alphabet.symbols[v] :=
  List.getD_eq_getElem _ _ h

/-- Every number of the width has a symbol. -/
theorem Lawful.symbol_mem (h : alphabet.Lawful) {v : Nat} (hv : v < 2 ^ alphabet.width) :
    alphabet.symbol v ∈ alphabet.symbols := by
  rw [symbol_eq_getElem (h.length_symbols ▸ hv)]
  exact List.getElem_mem _

/-- A byte has the value whose symbol it is. -/
theorem Lawful.value?_eq_some_iff (h : alphabet.Lawful) {b : UInt8} {v : Nat} :
    alphabet.value? b = some v ↔ v < 2 ^ alphabet.width ∧ b = letter (alphabet.symbol v) := by
  unfold value?
  rw [List.findIdx?_eq_some_iff_getElem]
  constructor
  · rintro ⟨hlt, hhit, -⟩
    refine ⟨h.length_symbols ▸ hlt, UInt8.toNat_inj.1 ?_⟩
    rw [symbol_eq_getElem hlt, toNat_letter (h.ascii _ (List.getElem_mem hlt))]
    exact (of_decide_eq_true hhit).symm
  · rintro ⟨hv, rfl⟩
    have hlt : v < alphabet.symbols.length := h.length_symbols ▸ hv
    rw [symbol_eq_getElem hlt, toNat_letter (h.ascii _ (List.getElem_mem hlt))]
    refine ⟨hlt, decide_eq_true rfl, fun j hj hhit => ?_⟩
    have heq := Char.toNat_inj.1 (of_decide_eq_true hhit)
    have hindex := (h.nodup.getElem_inj_iff).1 heq
    omega

/-- A text has the values whose symbols it is made of. -/
theorem Lawful.values_eq_ok_iff (h : alphabet.Lawful) :
    alphabet.values text = .ok vs ↔
      (∀ v ∈ vs, v < 2 ^ alphabet.width)
        ∧ text = (vs.map alphabet.symbol).map letter := by
  induction text generalizing vs with
  | nil =>
      constructor
      · intro hok
        cases hok
        simp
      · rintro ⟨-, htext⟩
        obtain rfl : vs = [] := by simpa using htext.symm
        rfl
  | cons b rest ih =>
      constructor
      · intro hok
        rw [values] at hok
        cases hv : alphabet.value? b with
        | none =>
            rw [hv] at hok
            cases hok
        | some v =>
            rw [hv] at hok
            cases hrest : alphabet.values rest with
            | error e =>
                rw [hrest] at hok
                cases hok
            | ok ws =>
                rw [hrest] at hok
                cases hok
                obtain ⟨hlt, rfl⟩ := h.value?_eq_some_iff.1 hv
                obtain ⟨hws, rfl⟩ := ih.1 hrest
                exact ⟨List.forall_mem_cons.2 ⟨hlt, hws⟩, rfl⟩
      · rintro ⟨hlt, htext⟩
        cases vs with
        | nil => simp at htext
        | cons v ws =>
            obtain ⟨hb, hrest⟩ := List.cons.inj htext
            obtain ⟨hv, hws⟩ := List.forall_mem_cons.1 hlt
            rw [values, h.value?_eq_some_iff.2 ⟨hv, hb⟩, ih.2 ⟨hws, hrest⟩]
            rfl

/-! ### Filling bits -/

/-- Fewer bits fill up the last symbol than it has. -/
theorem Lawful.fill_lt (h : alphabet.Lawful) (count : Nat) : alphabet.fill count < alphabet.width :=
  Nat.mod_lt _ h.width_pos

/-- Filling completes the last symbol. -/
theorem Lawful.dvd_add_fill (h : alphabet.Lawful) (count : Nat) :
    alphabet.width ∣ count + alphabet.fill count := by
  have hwidth := h.width_pos
  have hlt := Nat.mod_lt count hwidth
  have hdiv := Nat.div_add_mod count alphabet.width
  unfold fill
  by_cases hzero : count % alphabet.width = 0
  · rw [hzero, Nat.sub_zero, Nat.mod_self, Nat.add_zero]
    exact Nat.dvd_of_mod_eq_zero hzero
  · rw [Nat.mod_eq_of_lt (by omega)]
    refine ⟨count / alphabet.width + 1, ?_⟩
    rw [Nat.mul_succ]
    omega

/-- Only so many bits fill up, unless they are a symbol's worth. -/
theorem Lawful.fill_eq (h : alphabet.Lawful) {count extra : Nat}
    (hdvd : alphabet.width ∣ count + extra) (hlt : extra < alphabet.width) :
    alphabet.fill count = extra := by
  have hfill := h.fill_lt count
  have hmod := (Nat.modEq_zero_iff_dvd.2 (h.dvd_add_fill count)).trans
    (Nat.modEq_zero_iff_dvd.2 hdvd).symm
  have hcancel := Nat.ModEq.add_left_cancel' count hmod
  rwa [Nat.ModEq, Nat.mod_eq_of_lt hfill, Nat.mod_eq_of_lt hlt] at hcancel

/-- The bits of a byte string, filled up to whole symbols. -/
def filled (alphabet : Alphabet) (bytes : Bytes) : List Bool :=
  bitsOfBytes bytes ++ List.replicate (alphabet.fill (bytes.length * 8)) false

/-- The text is the symbols of the filled bits, piece by piece. -/
theorem encode_eq (alphabet : Alphabet) (bytes : Bytes) :
    alphabet.encode bytes
      = ((pieces (alphabet.width - 1) (alphabet.filled bytes)).map natOfBits).map
        alphabet.symbol := by
  rw [filled, ← length_bitsOfBytes, List.map_map]
  rfl

/-- The filled bits make whole symbols. -/
theorem Lawful.dvd_length_filled (h : alphabet.Lawful) (bytes : Bytes) :
    alphabet.width ∣ (alphabet.filled bytes).length := by
  have hdvd := h.dvd_add_fill (bytes.length * 8)
  rwa [filled, List.length_append, length_bitsOfBytes, List.length_replicate]

/-- The bits that a character stands for in a text. -/
def bitsOfSymbol (alphabet : Alphabet) (c : Char) : List Bool :=
  bitsOfNat alphabet.width ((alphabet.value? (letter c)).getD 0)

@[simp] theorem length_bitsOfSymbol (c : Char) :
    (alphabet.bitsOfSymbol c).length = alphabet.width :=
  length_bitsOfNat ..

/-- The symbol of a number has its bits. -/
theorem Lawful.bitsOfSymbol_symbol (h : alphabet.Lawful) {v : Nat} (hv : v < 2 ^ alphabet.width) :
    alphabet.bitsOfSymbol (alphabet.symbol v) = bitsOfNat alphabet.width v := by
  rw [bitsOfSymbol, h.value?_eq_some_iff.2 ⟨hv, rfl⟩, Option.getD_some]

/-- **The bits of a byte string, filled up, are those of its text**, character by character. -/
theorem Lawful.filled_eq (h : alphabet.Lawful) (bytes : Bytes) :
    alphabet.filled bytes = (alphabet.encode bytes).flatMap alphabet.bitsOfSymbol := by
  have hdvd := h.dvd_length_filled bytes
  have hbits := bits_of_numbers h.width_pos hdvd
  have hlt := numbers_lt h.width_pos hdvd
  rw [encode_eq, List.flatMap_map]
  generalize (pieces (alphabet.width - 1) (alphabet.filled bytes)).map natOfBits = vs at hbits hlt
  rw [← hbits]
  exact List.flatMap_congr fun v hv => (h.bitsOfSymbol_symbol (hlt v hv)).symm

/-- A text has a symbol for every `width` bits, the filling ones included. -/
theorem Lawful.length_encode (h : alphabet.Lawful) (bytes : Bytes) :
    (alphabet.encode bytes).length * alphabet.width
      = bytes.length * 8 + alphabet.fill (bytes.length * 8) := by
  have hlength := congrArg List.length (h.filled_eq bytes)
  rw [filled, List.length_append, length_bitsOfBytes, List.length_replicate] at hlength
  rw [hlength]
  simp [List.length_flatMap]

/-- Byte strings whose texts are of one length are of one length. -/
theorem Lawful.length_eq_of_length_encode_eq (h : alphabet.Lawful) {bytes' : Bytes}
    (hlen : (alphabet.encode bytes).length = (alphabet.encode bytes').length) :
    bytes.length = bytes'.length := by
  have hwidth := h.width_le
  have hfill := h.fill_lt (bytes.length * 8)
  have hfill' := h.fill_lt (bytes'.length * 8)
  have hlength := h.length_encode bytes
  rw [hlen, h.length_encode bytes'] at hlength
  omega

/-! ### Texts and bytes -/

/-- A text is made of symbols. -/
theorem Lawful.mem_symbols_of_mem_encode (h : alphabet.Lawful) {c : Char}
    (hc : c ∈ alphabet.encode bytes) : c ∈ alphabet.symbols := by
  rw [encode_eq] at hc
  obtain ⟨v, hv, rfl⟩ := List.mem_map.1 hc
  exact h.symbol_mem (numbers_lt h.width_pos (h.dvd_length_filled bytes) v hv)

/-- No byte string needs a last symbol that is there for filling alone. -/
theorem Lawful.length_encode_mod (h : alphabet.Lawful) (bytes : Bytes) :
    (alphabet.encode bytes).length * alphabet.width % 8 < alphabet.width := by
  have hlt := h.fill_lt (bytes.length * 8)
  have hle := h.width_le
  rw [h.length_encode]
  omega

/-- Decoding takes the whole bytes of the values' bits, if the others are zero. -/
theorem decode_of_values (hvs : alphabet.values text = .ok vs) {front back : List Bool}
    (hbits : vs.flatMap (bitsOfNat alphabet.width) = front ++ back) (hfront : 8 ∣ front.length)
    (hback : back.length < 8) :
    alphabet.decode text
      = if back.any id then .error .trailingBits else .ok (bytesOfBits front) := by
  have hwhole : (front ++ back).length / 8 * 8 = front.length := by
    rw [List.length_append]
    omega
  unfold decode
  rw [hvs]
  simp only [bind, Except.bind, hbits, hwhole, List.drop_left, List.take_left]
  by_cases hany : back.any id = true
  · rw [if_pos hany, if_pos hany]
    rfl
  · rw [if_neg hany, if_neg hany]
    rfl

/-- Bits of which none is set are zeros. -/
private theorem eq_zeros_of_not_any {bits : List Bool} (h : ¬ bits.any id = true) :
    bits = List.replicate bits.length false := by
  refine List.eq_replicate_iff.2 ⟨rfl, fun b hb => ?_⟩
  cases b with
  | false => rfl
  | true => exact absurd (List.any_eq_true.2 ⟨true, hb, rfl⟩) h

/-- The text of a byte string spells it. -/
theorem Lawful.decode_encode (h : alphabet.Lawful) (bytes : Bytes) :
    alphabet.decode ((alphabet.encode bytes).map letter) = .ok bytes := by
  have hdvd := h.dvd_length_filled bytes
  have hvs : alphabet.values ((alphabet.encode bytes).map letter)
      = .ok ((pieces (alphabet.width - 1) (alphabet.filled bytes)).map natOfBits) :=
    h.values_eq_ok_iff.2 ⟨numbers_lt h.width_pos hdvd, by rw [encode_eq]⟩
  have hfill := Nat.lt_of_lt_of_le (h.fill_lt (bytes.length * 8)) h.width_le
  rw [decode_of_values hvs (bits_of_numbers h.width_pos hdvd) (by simp) (by simpa using hfill),
    bytesOfBits_bitsOfBytes]
  simp

/-- The bits of a text's values are the bits of the bytes it spells, and zeros. -/
theorem Lawful.bits_of_decode (h : alphabet.Lawful) (hdecode : alphabet.decode text = .ok bytes) :
    ∃ vs, alphabet.values text = .ok vs
      ∧ vs.flatMap (bitsOfNat alphabet.width)
        = bitsOfBytes bytes ++ List.replicate (text.length * alphabet.width % 8) false := by
  cases hvs : alphabet.values text with
  | error e =>
      unfold decode at hdecode
      rw [hvs] at hdecode
      cases hdecode
  | ok vs =>
      refine ⟨vs, rfl, ?_⟩
      obtain ⟨-, htext⟩ := h.values_eq_ok_iff.1 hvs
      have hlen : (vs.flatMap (bitsOfNat alphabet.width)).length
          = text.length * alphabet.width := by
        rw [length_flatMap_bits, htext, List.length_map, List.length_map]
      generalize hbits : vs.flatMap (bitsOfNat alphabet.width) = bits at hlen
      have hfront : (bits.take (bits.length / 8 * 8)).length = 8 * (bits.length / 8) := by
        rw [List.length_take]
        omega
      have hback : (bits.drop (bits.length / 8 * 8)).length = bits.length % 8 := by
        rw [List.length_drop]
        omega
      have hsplit := List.take_append_drop (bits.length / 8 * 8) bits
      rw [decode_of_values hvs (hbits.trans hsplit.symm) ⟨_, hfront⟩ (by omega)] at hdecode
      -- The bits that fill no byte have to be zeros.
      by_cases hany : (bits.drop (bits.length / 8 * 8)).any id = true
      · rw [if_pos hany] at hdecode
        cases hdecode
      · rw [if_neg hany] at hdecode
        cases hdecode
        rw [bitsOfBytes_bytesOfBits ⟨_, hfront⟩, ← hlen, ← hback, ← eq_zeros_of_not_any hany,
          hsplit]

/-- **A text that spells bytes is their text**, if no symbol in it is there for filling alone. -/
theorem Lawful.encode_of_decode (h : alphabet.Lawful) (hdecode : alphabet.decode text = .ok bytes)
    (hlen : text.length * alphabet.width % 8 < alphabet.width) :
    (alphabet.encode bytes).map letter = text := by
  obtain ⟨vs, hvs, hbits⟩ := h.bits_of_decode hdecode
  obtain ⟨hlt, htext⟩ := h.values_eq_ok_iff.1 hvs
  have hdvd : alphabet.width ∣ bytes.length * 8 + text.length * alphabet.width % 8 := by
    have hlength := congrArg List.length hbits
    rw [length_flatMap_bits, List.length_append, length_bitsOfBytes, List.length_replicate]
      at hlength
    exact ⟨vs.length, by rw [← hlength, Nat.mul_comm]⟩
  have hfilled : alphabet.filled bytes = vs.flatMap (bitsOfNat alphabet.width) := by
    rw [filled, h.fill_eq hdvd hlen, hbits]
  rw [encode_eq, hfilled, numbers_of_bits h.width_pos hlt, htext]

end Alphabet

end LedgerWire.Text
