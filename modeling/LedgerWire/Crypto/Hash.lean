/-
# Hashes

The 32-byte SHA-256 digest that names networks, pools, contracts and entries. In texts it is 64
lower-case hexadecimal digits.

* `sha256` — the digest of a byte string.
* `Hash.text`, `Hash.ofText` — a hash as digits and back.
* `Hash.schema` — a hash on the wire and in JSON.
-/

import LedgerWire.Crypto.Sha2
import LedgerWire.Schema.Basic

namespace LedgerWire

/-- A SHA-256 digest: 32 bytes. -/
structure Hash where
  bytes : Vector UInt8 32
  deriving DecidableEq, Repr

/-- The SHA-256 digest of a byte string. -/
def sha256 (message : Bytes) : Hash :=
  ⟨(Bytes.fixed? 32 (Sha2.digest Sha2.variant256 message)).getD (Vector.replicate 32 0)⟩

namespace Hash

def toList (h : Hash) : Bytes := h.bytes.toList

def zero : Hash := ⟨Vector.replicate 32 0⟩

def text (h : Hash) : String := Hex.encode h.toList

def ofText (s : String) : Except HexError Hash := (Hex.decodeFixed 32 s).map Hash.mk

/-- Hashes are ordered by their bytes. -/
instance : Ord Hash where
  compare a b := compare a.toList b.toList

def wire : Codec Hash := (Codec.fixed 32).imap mk bytes

def schema : Schema Hash := .shownAs text ofText HexError.message wire

end Hash

end LedgerWire
