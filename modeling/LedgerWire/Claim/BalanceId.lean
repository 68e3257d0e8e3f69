/-
# Names of claimable balances

A claimable balance is named by a hash, in front of which the wire form puts four zero bytes for
its type. Texts may leave these out, or be a strkey.

* `ClaimableBalanceId.ofBytes` — 32 bytes, or 36 with the type.
* `ClaimableBalanceId.ofText` — 64 or 72 hexadecimal digits, or a strkey of 58 characters; `B`
  starts a strkey and is a digit as well, so the length decides.
-/

import LedgerWire.Crypto.Hash
import LedgerWire.Schema.Union

namespace LedgerWire

structure ClaimableBalanceId where
  hash : Hash
  deriving DecidableEq, Repr

namespace ClaimableBalanceId

/-- Balances are ordered by the hashes that name them. -/
instance : Ord ClaimableBalanceId where
  compare a b := compare a.hash b.hash

/-- The hash behind the discriminant of its type. -/
def wire : Codec ClaimableBalanceId :=
  .union "ClaimableBalanceIdType" [.of 0 (Hash.wire.imap mk hash) id some]

/-- The name that 32 bytes, or 36 with the type in front, stand for. -/
def ofBytes (bytes : Bytes) : Except WireError ClaimableBalanceId :=
  match Bytes.fixed? 32 bytes with
  | some hash => .ok ⟨⟨hash⟩⟩
  | none =>
      if bytes.length = 36 then wire.decode bytes
      else .error (.malformed "ClaimableBalanceId" (.idLength bytes.length))

def ofHex (s : String) : Except WireError ClaimableBalanceId :=
  match Hex.decode s with
  | .ok bytes => ofBytes bytes
  | .error fault => .error (.validation "balance_id" (.badHex fault))

def text (b : ClaimableBalanceId) : String := Hex.encode (List.replicate 4 0 ++ b.hash.toList)

/-- The strkey: one byte for the type, then the hash. -/
def strkey (b : ClaimableBalanceId) : String :=
  Strkey.encode .claimableBalance (0 :: b.hash.toList)

def strkeyLength : Nat := 58

/-- The name that the payload of a strkey stands for. -/
def ofStrkeyPayload (payload : Bytes) : Except WireError ClaimableBalanceId :=
  let wrongLength := WireError.validation "balance_id" (.payloadBytes payload.length 33)
  match payload with
  | [] => .error wrongLength
  | type :: hash =>
      if type ≠ 0 then .error (.unknownVariant "ClaimableBalanceIdType" (Int32.ofNat type.toNat))
      else match Bytes.fixed? 32 hash with
        | some hash => .ok ⟨⟨hash⟩⟩
        | none => .error wrongLength

def ofText (s : String) : Except WireError ClaimableBalanceId :=
  if s.toList.head? = some Strkey.Version.claimableBalance.letter
      ∧ s.utf8ByteSize = strkeyLength then
    match Strkey.decode .claimableBalance s with
    | .ok payload => ofStrkeyPayload payload
    | .error fault => .error (.validation "balance_id" (.badStrkey fault))
  else ofHex s

def schema : Schema ClaimableBalanceId := .shownAs text ofText WireError.message wire

end ClaimableBalanceId

end LedgerWire
