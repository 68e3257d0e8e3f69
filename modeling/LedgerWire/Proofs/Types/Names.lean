/-
# Names, amounts and signers are regular

The types that hold no recursive value and are part of everything else. Each proof repeats the
schema of its type, with the rules of the combinators in their places.
-/

import LedgerWire.Proofs.Schema.Rules
import LedgerWire.Proofs.Validation

namespace LedgerWire

open Codec (Flat)
open Get (Hungry)

/-! ### Keys, hashes and amounts -/

theorem Hash.flat : Hash.schema.wire.Flat := .imap rfl rfl (Codec.flat_fixed 32)

theorem Amount.flat : Amount.schema.wire.Flat := .imap rfl rfl Codec.flat_i64

theorem Price.flat : Price.schema.wire.Flat := .imap rfl rfl (.both Codec.flat_i32 Codec.flat_i32)

theorem AccountId.flat_keyWire : AccountId.keyWire.Flat := .imap rfl rfl (Codec.flat_fixed 32)

theorem AccountId.flat : AccountId.schema.wire.Flat := .single AccountId.flat_keyWire

theorem MuxedAccount.flat : MuxedAccount.schema.wire.Flat :=
  .union (fun a => by cases a <;> rfl) rfl fun k =>
    .of rfl (AccountId.flat_keyWire k) <|
    .of rfl ((Flat.both Codec.flat_u64 AccountId.flat_keyWire) k) .nil

theorem ContractId.flat : ContractId.schema.wire.Flat := .imap rfl rfl Hash.flat

theorem ScAddress.flat : ScAddress.schema.wire.Flat :=
  .union (fun a => by cases a <;> rfl) rfl fun k =>
    .of rfl (AccountId.flat k) <| .of rfl (ContractId.flat k) .nil

theorem PoolId.flat : PoolId.schema.wire.Flat := .imap rfl rfl Hash.flat

/-! ### Signers -/

theorem SignerKey.flat : SignerKey.schema.wire.Flat := by
  have hpayload : (AccountId.keyWire.both
      (.bytes Limits.signedPayload "signed_payload" "signed_payload")).Flat :=
    .both AccountId.flat_keyWire (Codec.flat_bytes _ _ _)
  exact .union (fun a => by cases a <;> rfl) rfl fun k =>
    .of rfl (AccountId.flat_keyWire k) <| .of rfl (Hash.flat k) <| .of rfl (Hash.flat k) <|
    .of rfl (hpayload k) .nil

theorem Signer.flat : Signer.schema.wire.Flat :=
  .guarded judges_signer <| .imap rfl rfl (.both SignerKey.flat Codec.flat_u32)

theorem Signer.hungry : Signer.schema.wire.get.Hungry :=
  ((Get.hungry_i32.bind _).bind _).bind _

end LedgerWire
