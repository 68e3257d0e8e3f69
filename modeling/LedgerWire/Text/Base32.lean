/-
# Base 32

The upper-case base 32 alphabet of RFC 4648, without padding. A text whose length leaves more than
a symbol's worth of filling bits spells nothing; it is refused before its symbols are read.

* `Base32.encode`, `Base32.decode` — the two directions.
-/

import LedgerWire.Text.Bits

namespace LedgerWire.Base32

open LedgerWire.Text

/-- `A` to `Z`, then `2` to `7`. -/
def alphabet : Alphabet where
  width := 5
  symbols := "ABCDEFGHIJKLMNOPQRSTUVWXYZ234567".toList

inductive Fault where
  | length
  | symbol (byte : UInt8)
  | trailingBits
  deriving DecidableEq, Repr

/-- The numbers of symbols, modulo eight, that no byte string needs. -/
def isImpossibleLength (length : Nat) : Bool :=
  length % 8 = 1 || length % 8 = 3 || length % 8 = 6

def encode (bytes : Bytes) : String := String.ofList (alphabet.encode bytes)

/-- The byte string of a text, given as its bytes. -/
def decode (text : Bytes) : Except Fault Bytes :=
  if isImpossibleLength text.length then .error .length
  else match alphabet.decode text with
    | .ok bytes => .ok bytes
    | .error (.symbol b) => .error (.symbol b)
    | .error .trailingBits => .error .trailingBits

end LedgerWire.Base32
