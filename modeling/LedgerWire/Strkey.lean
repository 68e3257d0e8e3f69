/-
# Strkey: the text form of keys

Every key-like value has a text in base 32: a version byte, the payload, and a checksum of both.
The version decides the first character, so a text of one kind is never taken for another. Reading
is strict. It judges, in this order, the length and the symbols of the text, the version, the
checksum, and for keys of fixed size the length of the payload.

* `Strkey.encode` — the text of a payload under a version.
* `Strkey.decode`, `Strkey.decodeFixed` — the payload of a text.
-/

import LedgerWire.Text.Base32
import LedgerWire.Text.Crc16
import LedgerWire.Text.Quoted

namespace LedgerWire.Strkey

/-! ### Versions -/

/-- What kind of value a text names. -/
inductive Version where
  | accountId
  | secretSeed
  | muxedAccount
  | preAuthTx
  | sha256Hash
  | signedPayload
  | contract
  | claimableBalance
  | liquidityPool
  deriving DecidableEq, Repr

/-- The value of the first symbol of every text of the version. -/
def Version.symbol : Version → Nat
  | .accountId => 6
  | .secretSeed => 18
  | .muxedAccount => 12
  | .preAuthTx => 19
  | .sha256Hash => 23
  | .signedPayload => 15
  | .contract => 2
  | .claimableBalance => 1
  | .liquidityPool => 11

/-- The byte in front of the payload: the first symbol's five bits, then three zero bits. -/
def Version.byte (v : Version) : UInt8 := UInt8.ofNat (8 * v.symbol)

/-- The first character of every text of the version. -/
def Version.letter (v : Version) : Char := Base32.alphabet.symbol v.symbol

def Version.table : List (String × Version) :=
  [ ("AccountId", .accountId), ("SecretSeed", .secretSeed), ("MuxedAccount", .muxedAccount),
    ("PreAuthTx", .preAuthTx), ("Sha256Hash", .sha256Hash), ("SignedPayload", .signedPayload),
    ("Contract", .contract), ("ClaimableBalance", .claimableBalance),
    ("LiquidityPool", .liquidityPool) ]

def Version.ofName? (name : String) : Option Version := Version.table.lookup name

/-! ### Faults -/

/-- Why a text is not a key of the wanted kind. -/
inductive Fault where
  | length (characters : Nat)
  | character (c : Char)
  | version (expected got : Char)
  | checksum
  | nonCanonical
  | payloadLength (bytes : Nat)
  deriving DecidableEq, Repr

def Fault.message : Fault → String
  | .length n => "invalid strkey length: " ++ toString n ++ " characters"
  | .character c => "invalid base32 character '" ++ String.singleton c ++ "'"
  | .version expected got =>
      "wrong strkey version: expected '" ++ String.singleton expected ++ "', got '"
        ++ String.singleton got ++ "'"
  | .checksum => "strkey checksum mismatch"
  | .nonCanonical => "strkey is not canonically encoded"
  | .payloadLength n => "invalid strkey payload length: " ++ toString n ++ " bytes"

/-! ### The two directions -/

/-- What the checksum covers, followed by the checksum. -/
def sealed (body : Bytes) : Bytes := body ++ Crc16.tail body

/-- The text of a payload. -/
def encode (v : Version) (payload : Bytes) : String :=
  Base32.encode (sealed (v.byte :: payload))

/-- The bytes that a text spells, checksum included. -/
def rawBytes (s : String) : Except Fault Bytes :=
  let text := Bytes.ofString s
  match Base32.decode text with
  | .ok bytes => .ok bytes
  | .error .length => .error (.length text.length)
  | .error (.symbol b) => .error (.character (Text.charOfByte b))
  | .error .trailingBits => .error .nonCanonical

/-- The payload of a text that must have the given version. -/
def decode (v : Version) (s : String) : Except Fault Bytes := do
  let raw ← rawBytes s
  let body := raw.take (raw.length - 2)
  match body with
  | [] => throw (.length s.utf8ByteSize)
  | version :: payload =>
      -- The version is judged before the checksum, so a key of another kind is reported as one.
      if version ≠ v.byte then throw (.version v.letter (s.toList.headD '?'))
      if raw ≠ sealed body then throw .checksum
      return payload

/-- The payload of a text that must have the given version and so many bytes of payload. -/
def decodeFixed (n : Nat) (v : Version) (s : String) : Except Fault (Vector UInt8 n) := do
  let payload ← decode v s
  match Bytes.fixed? n payload with
  | some bytes => return bytes
  | none => throw (.payloadLength payload.length)

end LedgerWire.Strkey
