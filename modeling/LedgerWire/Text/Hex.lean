/-
# Hexadecimal bytes

Bytes as pairs of hexadecimal digits, high half first. Writing uses lower-case digits; reading
accepts both cases and names the first fault it meets: an odd number of digits, then a length that
does not fit a field of fixed size, then the first byte that is no digit, with its position.

* `Hex.encode`, `Hex.decode`, `Hex.decodeFixed` — the two directions.
-/

import LedgerWire.Bytes
import LedgerWire.Text.Quoted

namespace LedgerWire

/-- What can be wrong with a hexadecimal text. -/
inductive HexError where
  | oddLength
  | wrongLength
  | badDigit (byte : UInt8) (position : Nat)
  deriving DecidableEq, Repr

def HexError.message : HexError → String
  | .oddLength => "Odd number of digits"
  | .wrongLength => "Invalid string length"
  | .badDigit b i =>
      "Invalid character " ++ Text.quoteChar (Text.charOfByte b) ++ " at position " ++ toString i

namespace Hex

def digit (n : Nat) : Char :=
  if n < 10 then Char.ofNat (48 + n) else Char.ofNat (87 + n)

/-- The value of the byte of a digit in either case. -/
def value? (b : UInt8) : Option Nat :=
  let n := b.toNat
  if 48 ≤ n ∧ n ≤ 57 then some (n - 48)
  else if 97 ≤ n ∧ n ≤ 102 then some (n - 87)
  else if 65 ≤ n ∧ n ≤ 70 then some (n - 55)
  else none

def encodeByte (b : UInt8) : List Char := [digit (b.toNat / 16), digit (b.toNat % 16)]

/-- Bytes as lower-case digit pairs. -/
def encode (bytes : Bytes) : String := String.ofList (bytes.flatMap encodeByte)

/-- Reads digit pairs from the given position on; a last byte without a partner is refused by its
callers beforehand. -/
def decodePairs : Bytes → Nat → Except HexError (Bytes)
  | [], _ => .ok []
  | [_], _ => .error .oddLength
  | high :: low :: rest, i =>
      match value? high, value? low with
      | none, _ => .error (.badDigit high i)
      | some _, none => .error (.badDigit low (i + 1))
      | some h, some l => do
          let tail ← decodePairs rest (i + 2)
          return UInt8.ofNat (16 * h + l) :: tail

/-- The bytes that a text of digit pairs stands for. -/
def decode (s : String) : Except HexError Bytes :=
  let bytes := Bytes.ofString s
  if bytes.length % 2 = 1 then .error .oddLength else decodePairs bytes 0

/-- The bytes of a text that must spell exactly `n` of them. The length is judged before the
digits. -/
def decodeFixed (n : Nat) (s : String) : Except HexError (Vector UInt8 n) :=
  let bytes := Bytes.ofString s
  if bytes.length % 2 = 1 then .error .oddLength
  else if bytes.length / 2 ≠ n then .error .wrongLength
  else do
    let plain ← decodePairs bytes 0
    match Bytes.fixed? n plain with
    | some v => return v
    | none => .error .wrongLength

end Hex

end LedgerWire
