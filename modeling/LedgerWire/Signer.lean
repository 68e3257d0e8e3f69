/-
# Signers

What can authorize on an account's behalf besides its own key: another key, a transaction known in
advance by its hash, the preimage of a hash, or a key bound to one payload. A signer is such a key
with a weight.

* `SignerKey`, `Signer` — the types, with the bounds that `validate` judges.
* `SignerKey.text`, `SignerKey.ofText` — the strkey forms, told apart by their first letter.
-/

import LedgerWire.Address
import LedgerWire.Limits
import LedgerWire.Schema.Record

namespace LedgerWire

/-- Something that can authorize for an account. -/
inductive SignerKey where
  | ed25519 (account : AccountId)
  | preAuthTx (hash : Hash)
  | hashX (hash : Hash)
  | signedPayload (account : AccountId) (payload : Bytes)
  deriving DecidableEq, Repr

namespace SignerKey

/-- A payload has its bound; the other kinds have none. -/
def validate : SignerKey → Except WireError Unit
  | .signedPayload _ payload =>
      if payload.length ≤ Limits.signedPayload.toNat then .ok ()
      else .error (.validation "signed_payload"
        (.bytesAbove payload.length Limits.signedPayload.toNat))
  | _ => .ok ()

def ofSignedPayload (account : AccountId) (payload : Bytes) : Except WireError SignerKey :=
  checked validate (.signedPayload account payload)

/-! ### Texts -/

/-- What the strkey of a key bound to a payload covers: the key, the payload behind its length, and
zeros up to a multiple of four bytes. -/
def payloadBytes (account : AccountId) (payload : Bytes) : Bytes :=
  account.toList ++ Bytes.bigEndian 4 payload.length ++ payload
    ++ List.replicate (paddingFor payload.length) 0

def text : SignerKey → String
  | .ed25519 account => account.text
  | .preAuthTx hash => Strkey.encode .preAuthTx hash.toList
  | .hashX hash => Strkey.encode .sha256Hash hash.toList
  | .signedPayload account payload => Strkey.encode .signedPayload (payloadBytes account payload)

/-- The key and the payload that such bytes stand for. Their number must be the one that the length
in them asks for. -/
def ofPayloadBytes (raw : Bytes) : Except Strkey.Fault SignerKey :=
  let length := Bytes.toNat ((raw.drop 32).take 4)
  match Bytes.fixed? 32 (raw.take 32) with
  | some key =>
      if Limits.signedPayload.toNat < length ∨ raw.length ≠ 36 + length + paddingFor length then
        .error (.payloadLength raw.length)
      else .ok (.signedPayload ⟨key⟩ ((raw.drop 36).take length))
  | none => .error (.payloadLength raw.length)

def ofText (s : String) : Except Strkey.Fault SignerKey := do
  match s.toList.head? with
  | some 'T' => return .preAuthTx ⟨← Strkey.decodeFixed 32 .preAuthTx s⟩
  | some 'X' => return .hashX ⟨← Strkey.decodeFixed 32 .sha256Hash s⟩
  | some 'P' => ofPayloadBytes (← Strkey.decode .signedPayload s)
  -- Accounts start with G; any other letter is refused where the account is read.
  | _ => return .ed25519 (← AccountId.ofText s)

/-! ### Wire form -/

/-- Keys stand on the wire without a discriminant of their own. -/
def wire : Codec SignerKey :=
  .union "SignerKeyType"
    [ .of 0 AccountId.keyWire .ed25519 fun
        | .ed25519 account => some account
        | _ => none,
      .of 1 Hash.wire .preAuthTx fun
        | .preAuthTx hash => some hash
        | _ => none,
      .of 2 Hash.wire .hashX fun
        | .hashX hash => some hash
        | _ => none,
      .of 3
        (AccountId.keyWire.both
          (Codec.bytes Limits.signedPayload "signed_payload" "signed_payload"))
        (fun (account, payload) => .signedPayload account payload) fun
        | .signedPayload account payload => some (account, payload)
        | _ => none ]

def schema : Schema SignerKey := .shownAs text ofText Strkey.Fault.message wire

def kindName : SignerKey → String
  | .ed25519 _ => "Ed25519"
  | .preAuthTx _ => "PreAuthTx"
  | .hashX _ => "HashX"
  | .signedPayload _ _ => "Ed25519SignedPayload"

end SignerKey

/-- Weights and thresholds are at most 255. -/
def checkWeight (field : String) (weight : UInt32) : Except WireError Unit :=
  if weight ≤ Limits.signerWeight then .ok ()
  else .error (.validation field (.weightOutside weight.toNat Limits.signerWeight.toNat))

/-- A signer key and its weight; weight 0 takes the signer away. -/
structure Signer where
  key : SignerKey
  weight : UInt32
  deriving DecidableEq, Repr

namespace Signer

open Schema

def validate (s : Signer) : Except WireError Unit := do
  s.key.validate
  checkWeight "signer_weight" s.weight

def make (key : SignerKey) (weight : UInt32) : Except WireError Signer :=
  checked validate ⟨key, weight⟩

def schema : Schema Signer :=
  ((field "key" SignerKey.schema >> field "weight" .u32).record
    (fun (key, weight) => ⟨key, weight⟩) fun s => (s.key, s.weight)).guarded validate

end Signer

end LedgerWire
