/-
# Texts that spell bytes a few bits at a time

Base 32 and base 64 regroup the bits of a byte string: eight at a time on one side, five or six on
the other, highest bit first, with zero bits filling up the last symbol. `Alphabet` holds what the
two differ in, and the regrouping is written once.

* `Alphabet.encode` — the symbols of a byte string.
* `Alphabet.decode` — its bytes again; a symbol outside the alphabet and a filling bit that is set
  are refused, so each byte string has one text.
-/

import LedgerWire.Bytes

namespace LedgerWire.Text

/-! ### Bits, highest first -/

/-- The `width` lowest bits of a number. -/
def bitsOfNat : (width n : Nat) → List Bool
  | 0, _ => []
  | width + 1, n => bitsOfNat width (n / 2) ++ [n % 2 == 1]

/-- The number that a string of bits spells. -/
def natOfBits (bits : List Bool) : Nat :=
  bits.foldl (fun n b => 2 * n + b.toNat) 0

def bitsOfBytes (bytes : Bytes) : List Bool :=
  bytes.flatMap fun b => bitsOfNat 8 b.toNat

/-- A list cut into pieces of `size + 1`; the last piece may be shorter. -/
def pieces {α : Type} (size : Nat) : List α → List (List α)
  | [] => []
  | x :: xs => (x :: xs.take size) :: pieces size (xs.drop size)
  termination_by xs => xs.length
  decreasing_by simp only [List.length_drop, List.length_cons]; omega

/-- The bytes that a string of bits spells, eight bits each. -/
def bytesOfBits (bits : List Bool) : Bytes :=
  (pieces 7 bits).map fun piece => UInt8.ofNat (natOfBits piece)

/-! ### Alphabets -/

/-- The symbols of a text form, in the order of their values; each stands for `width` bits. -/
structure Alphabet where
  width : Nat
  symbols : List Char

namespace Alphabet

variable (alphabet : Alphabet)

def symbol (value : Nat) : Char := alphabet.symbols.getD value '?'

/-- The value of the symbol that a byte of text stands for. -/
def value? (b : UInt8) : Option Nat :=
  alphabet.symbols.findIdx? fun c => c.toNat = b.toNat

/-- How many zero bits fill up `count` bits to a whole number of symbols. -/
def fill (count : Nat) : Nat :=
  (alphabet.width - count % alphabet.width) % alphabet.width

def encode (bytes : Bytes) : List Char :=
  let bits := bitsOfBytes bytes
  let filled := bits ++ List.replicate (alphabet.fill bits.length) false
  (pieces (alphabet.width - 1) filled).map fun piece => alphabet.symbol (natOfBits piece)

inductive Fault where
  | symbol (byte : UInt8)
  | trailingBits
  deriving DecidableEq, Repr

/-- The values of a text's symbols, or the first byte that is none. -/
def values : Bytes → Except Fault (List Nat)
  | [] => .ok []
  | b :: rest =>
      match alphabet.value? b with
      | none => .error (.symbol b)
      | some v => do return v :: (← values rest)

/-- The bytes that a text's symbols spell. The bits after the last whole byte only fill up and must
be zero. -/
def decode (text : Bytes) : Except Fault Bytes := do
  let bits := (← alphabet.values text).flatMap (bitsOfNat alphabet.width)
  let whole := bits.length / 8 * 8
  if (bits.drop whole).any id then throw .trailingBits
  return bytesOfBits (bits.take whole)

end Alphabet

end LedgerWire.Text
