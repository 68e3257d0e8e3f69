/-
# Base 64

The standard base 64 of RFC 4648: four symbols for three bytes, and equals signs that complete the
last group. Reading is strict: the equals signs must be there, as many as are needed, and the bits
that only fill up must be zero, so each byte string has one text.

* `Base64.encode`, `Base64.decode?` — the two directions.
-/

import LedgerWire.Text.Bits

namespace LedgerWire.Base64

open LedgerWire.Text

/-- `A` to `Z`, `a` to `z`, `0` to `9`, plus and slash. -/
def alphabet : Alphabet where
  width := 6
  symbols := "ABCDEFGHIJKLMNOPQRSTUVWXYZabcdefghijklmnopqrstuvwxyz0123456789+/".toList

/-- How many equals signs complete that many symbols to groups of four. -/
def padding (symbols : Nat) : Nat := (4 - symbols % 4) % 4

def encode (bytes : Bytes) : String :=
  let symbols := alphabet.encode bytes
  String.ofList (symbols ++ List.replicate (padding symbols.length) '=')

/-- The byte string of a text. One symbol alone in the last group spells nothing. -/
def decode? (s : String) : Option Bytes :=
  let text := Bytes.ofString s
  let isPad : UInt8 → Bool := fun b => b.toNat = '='.toNat
  let symbols := text.takeWhile (!isPad ·)
  let pads := text.dropWhile (!isPad ·)
  if symbols.length % 4 = 1 then none
  -- The padding is as long as it has to be, and nothing stands behind it.
  else if pads.length ≠ padding symbols.length || !pads.all isPad then none
  else (alphabet.decode symbols).toOption

end LedgerWire.Base64
