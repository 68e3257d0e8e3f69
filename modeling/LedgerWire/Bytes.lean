/-
# Byte strings and the numbers they spell

Byte strings are lists of bytes. This module holds what every format here asks of them: numerals of
a fixed width in base 256 with either end first, cutting off an exact number of bytes, and the
byte strings whose length is part of their type.

* `toText?_eq_some_iff` — a text is determined by its bytes in UTF-8, and they by it.
* `hasAtLeast_iff`, `cut?_eq_some_iff` — a cut succeeds exactly when enough bytes are there, and
  loses none.
-/

namespace LedgerWire

/-- A string of bytes. -/
abbrev Bytes := List UInt8

namespace Bytes

/-! ### Numerals in base 256 -/

/-- The numeral of `n` on `width` bytes, last byte lowest; higher digits are dropped. -/
def bigEndian : (width n : Nat) → Bytes
  | 0, _ => []
  | width + 1, n => bigEndian width (n / 256) ++ [UInt8.ofNat n]

/-- The number that a numeral spells, first byte highest. -/
def toNat (bytes : Bytes) : Nat :=
  bytes.foldl (fun n b => 256 * n + b.toNat) 0

/-- The numeral of `n` on `width` bytes, first byte lowest. -/
def littleEndian : (width n : Nat) → Bytes
  | 0, _ => []
  | width + 1, n => UInt8.ofNat n :: littleEndian width (n / 256)

/-- The number that a numeral spells, first byte lowest. -/
def toNatLittle : Bytes → Nat
  | [] => 0
  | b :: rest => b.toNat + 256 * toNatLittle rest

@[simp] theorem length_bigEndian (width n : Nat) : (bigEndian width n).length = width := by
  induction width generalizing n with
  | zero => rfl
  | succ width ih => simp [bigEndian, ih]

@[simp] theorem length_littleEndian (width n : Nat) : (littleEndian width n).length = width := by
  induction width generalizing n with
  | zero => rfl
  | succ width ih => simp [littleEndian, ih]

/-- One more byte at the end is one more digit to base 256. -/
@[simp] theorem toNat_append_singleton (bytes : Bytes) (b : UInt8) :
    toNat (bytes ++ [b]) = 256 * toNat bytes + b.toNat := by
  simp [toNat]

/-! ### Texts -/

/-- The UTF-8 bytes of a text. -/
def ofString (s : String) : Bytes := s.toUTF8.data.toList

/-- The text whose UTF-8 bytes these are, if there is one. -/
def toText? (bytes : Bytes) : Option String := String.fromUTF8? ⟨bytes.toArray⟩

/-- Byte strings stand for a text exactly when they are the bytes of the text. -/
theorem toText?_eq_some_iff {bytes : Bytes} {s : String} :
    toText? bytes = some s ↔ bytes = ofString s := by
  unfold toText? ofString String.fromUTF8?
  constructor
  · intro h
    split at h
    · cases h
      rfl
    · cases h
  · rintro rfl
    rw [dif_pos]
    · rfl

/-! ### Cutting -/

/-- The list has at least `n` elements; the rest of it is not walked. -/
def hasAtLeast {α : Type} : Nat → List α → Bool
  | 0, _ => true
  | _ + 1, [] => false
  | n + 1, _ :: rest => hasAtLeast n rest

/-- The counted walk down the list decides the comparison of lengths. -/
theorem hasAtLeast_iff {α : Type} {n : Nat} {xs : List α} :
    hasAtLeast n xs = true ↔ n ≤ xs.length := by
  induction xs generalizing n with
  | nil => cases n <;> simp [hasAtLeast]
  | cons x xs ih => cases n <;> simp [hasAtLeast, ih]

theorem size_take {n : Nat} {bytes : Bytes} (h : hasAtLeast n bytes = true) :
    (bytes.take n).toArray.size = n := by
  have := hasAtLeast_iff.1 h
  simp only [List.size_toArray, List.length_take]
  omega

/-- The byte string as one of the given length, if it has that length. -/
def fixed? (n : Nat) (bytes : Bytes) : Option (Vector UInt8 n) :=
  if h : bytes.length = n then some ⟨bytes.toArray, by simpa using h⟩ else none

/-- The first `n` bytes and the others, if there are that many. -/
def cut? (n : Nat) (bytes : Bytes) : Option (Vector UInt8 n × Bytes) :=
  if h : hasAtLeast n bytes = true then some (⟨(bytes.take n).toArray, size_take h⟩, bytes.drop n)
  else none

/-- A cut finds its bytes in front and leaves the rest, exactly when the input is the two joined. -/
theorem cut?_eq_some_iff {n : Nat} {bytes : Bytes} {front : Vector UInt8 n} {rest : Bytes} :
    cut? n bytes = some (front, rest) ↔ bytes = front.toList ++ rest := by
  unfold cut?
  constructor
  · intro h
    split at h
    · simp only [Option.some.injEq, Prod.mk.injEq] at h
      obtain ⟨rfl, rfl⟩ := h
      simp [Vector.toList]
    · cases h
  · rintro rfl
    have hlen : front.toList.length = n := by simp
    rw [dif_pos (hasAtLeast_iff.2 (by simp))]
    simp only [Option.some.injEq, Prod.mk.injEq]
    refine ⟨?_, by rw [List.drop_left' hlen]⟩
    apply Vector.toArray_inj.1
    show (List.take n (front.toList ++ rest)).toArray = front.toArray
    rw [List.take_left' hlen]
    simp [Vector.toList]

/-- A cut fails exactly when too few bytes are there. -/
theorem cut?_eq_none_iff {n : Nat} {bytes : Bytes} : cut? n bytes = none ↔ bytes.length < n := by
  unfold cut?
  split
  · rename_i h
    have := hasAtLeast_iff.1 h
    simp; omega
  · rename_i h
    have := mt hasAtLeast_iff.2 h
    simp; omega

/-- A byte string of fixed length is every length's own list. -/
theorem fixed?_toList {n : Nat} (v : Vector UInt8 n) : fixed? n v.toList = some v := by
  unfold fixed?
  rw [dif_pos (by simp)]
  simp [Vector.toList]

/-- Only a list of the length is one of fixed length. -/
theorem fixed?_eq_some_iff {n : Nat} {bytes : Bytes} {v : Vector UInt8 n} :
    fixed? n bytes = some v ↔ bytes = v.toList := by
  constructor
  · intro h
    unfold fixed? at h
    split at h
    · cases h
      rfl
    · cases h
  · rintro rfl
    exact fixed?_toList v

end Bytes

end LedgerWire
