/-
# Operations are regular

Each payload is a record under a rule; nesting comes in through the conditions of claimants, the key
of a ledger entry, and what the contract host is asked for.

* `Operation.nesting` — the conditions, values and calls on the longest way into an operation.
* `Operation.regular` — it is what reading counts.
-/

import LedgerWire.Proofs.Types.Contracts
import LedgerWire.Proofs.Types.Entries
import LedgerWire.Operation.Basic

namespace LedgerWire

open Codec

/-! ### Accounts -/

theorem CreateAccountOp.flat : CreateAccountOp.schema.wire.Flat :=
  .guarded judges_createAccount <| .imap rfl rfl <| .both AccountId.flat Amount.flat

theorem ManageDataOp.flat : ManageDataOp.schema.wire.Flat :=
  .guarded judges_manageData <| .imap rfl rfl <| .both (flat_text _ _ _) (.optional flat_dataValue)

theorem BumpSequenceOp.flat : BumpSequenceOp.schema.wire.Flat :=
  .guarded judges_bumpSequence <| .imap rfl rfl flat_i64

theorem SetOptionsOp.flat : SetOptionsOp.schema.wire.Flat :=
  .guarded judges_setOptions <| .imap rfl rfl <| .both (.optional AccountId.flat) <|
    .both (.optional flat_u32) <| .both (.optional flat_u32) <| .both (.optional flat_u32) <|
    .both (.optional flat_u32) <| .both (.optional flat_u32) <| .both (.optional flat_u32) <|
    .both (.optional flat_homeDomain) (.optional Signer.flat)

/-! ### Payments and offers -/

theorem PaymentOp.flat : PaymentOp.schema.wire.Flat :=
  .guarded judges_payment <| .imap rfl rfl <| .both MuxedAccount.flat <|
    .both Asset.flat Amount.flat

theorem PathPaymentStrictReceiveOp.flat : PathPaymentStrictReceiveOp.schema.wire.Flat :=
  .guarded judges_pathPaymentStrictReceive <| .imap rfl rfl <| .both Asset.flat <|
    .both Amount.flat <| .both MuxedAccount.flat <| .both Asset.flat <| .both Amount.flat <|
    .array Asset.hungry Asset.flat

theorem PathPaymentStrictSendOp.flat : PathPaymentStrictSendOp.schema.wire.Flat :=
  .guarded judges_pathPaymentStrictSend <| .imap rfl rfl <| .both Asset.flat <| .both Amount.flat <|
    .both MuxedAccount.flat <| .both Asset.flat <| .both Amount.flat <|
    .array Asset.hungry Asset.flat

theorem ManageSellOfferOp.flat : ManageSellOfferOp.schema.wire.Flat :=
  .guarded judges_manageSellOffer <| .imap rfl rfl <| .both Asset.flat <| .both Asset.flat <|
    .both Amount.flat <| .both Price.flat flat_i64

theorem ManageBuyOfferOp.flat : ManageBuyOfferOp.schema.wire.Flat :=
  .guarded judges_manageBuyOffer <| .imap rfl rfl <| .both Asset.flat <| .both Asset.flat <|
    .both Amount.flat <| .both Price.flat flat_i64

theorem CreatePassiveSellOfferOp.flat : CreatePassiveSellOfferOp.schema.wire.Flat :=
  .guarded judges_createPassiveSellOffer <| .imap rfl rfl <| .both Asset.flat <| .both Asset.flat <|
    .both Amount.flat Price.flat

/-! ### Trust -/

theorem ChangeTrustOp.flat : ChangeTrustOp.schema.wire.Flat :=
  .guarded judges_changeTrust <| .imap rfl rfl <| .both ChangeTrustAsset.flat Amount.flat

theorem SetTrustLineFlagsOp.flat : SetTrustLineFlagsOp.schema.wire.Flat :=
  .guarded judges_setTrustLineFlags <| .imap rfl rfl <| .both AccountId.flat <| .both Asset.flat <|
    .both flat_u32 flat_u32

theorem ClawbackOp.flat : ClawbackOp.schema.wire.Flat :=
  .guarded judges_clawback <| .imap rfl rfl <| .both Asset.flat <|
    .both MuxedAccount.flat Amount.flat

/-! ### Claimable balances -/

def CreateClaimableBalanceOp.nesting (op : CreateClaimableBalanceOp) : Nat :=
  deepest Claimant.nesting op.claimants

theorem CreateClaimableBalanceOp.regular (k : Nat) :
    Regular k CreateClaimableBalanceOp.schema.wire CreateClaimableBalanceOp.nesting :=
  .guarded judges_createClaimableBalance <| .imap rfl rfl <| .behind Asset.flat <|
    .behind Amount.flat <| (Claimant.regular k).array _ _ _ Claimant.hungry

theorem ClaimClaimableBalanceOp.flat : ClaimClaimableBalanceOp.schema.wire.Flat :=
  .imap rfl rfl ClaimableBalanceId.flat

theorem ClawbackClaimableBalanceOp.flat : ClawbackClaimableBalanceOp.schema.wire.Flat :=
  .imap rfl rfl ClaimableBalanceId.flat

/-! ### Sponsorship -/

theorem BeginSponsoringFutureReservesOp.flat :
    BeginSponsoringFutureReservesOp.schema.wire.Flat := .imap rfl rfl AccountId.flat

def RevokeSponsorshipOp.nesting : RevokeSponsorshipOp → Nat
  | .ledgerEntry key => key.nesting
  | .signer _ _ => 0

theorem RevokeSponsorshipOp.regular (k : Nat) :
    Regular k RevokeSponsorshipOp.schema.wire RevokeSponsorshipOp.nesting := by
  refine .guarded judges_revokeSponsorship <| .union_of_parts (fun a => by cases a <;> rfl) rfl ?_
  exact .of rfl (LedgerKey.regular k) <| .of rfl ((AccountId.flat.both SignerKey.flat) k) .nil

/-! ### Pools -/

theorem LiquidityPoolDepositOp.flat : LiquidityPoolDepositOp.schema.wire.Flat :=
  .guarded judges_liquidityPoolDeposit <| .imap rfl rfl <| .both PoolId.flat <| .both Amount.flat <|
    .both Amount.flat <| .both Price.flat Price.flat

theorem LiquidityPoolWithdrawOp.flat : LiquidityPoolWithdrawOp.schema.wire.Flat :=
  .guarded judges_liquidityPoolWithdraw <| .imap rfl rfl <| .both PoolId.flat <|
    .both Amount.flat <| .both Amount.flat Amount.flat

/-! ### Contracts -/

def InvokeHostFunctionOp.nesting (op : InvokeHostFunctionOp) : Nat :=
  max op.hostFunction.nesting (deepest SorobanAuthorizationEntry.nesting op.auth)

theorem InvokeHostFunctionOp.regular (k : Nat) :
    Regular k InvokeHostFunctionOp.schema.wire InvokeHostFunctionOp.nesting :=
  .imap rfl rfl <| (HostFunction.regular k).both
    ((SorobanAuthorizationEntry.regular k).array _ _ _ SorobanAuthorizationEntry.hungry)

theorem ExtendFootprintTtlOp.flat : ExtendFootprintTtlOp.schema.wire.Flat :=
  .guarded judges_extendFootprintTtl <| .imap rfl rfl <| .both Schema.flat_reserved flat_u32

theorem RestoreFootprintOp.flat : RestoreFootprintOp.schema.wire.Flat :=
  .imap rfl rfl Schema.flat_reserved

/-! ### Operations -/

def OperationBody.nesting : OperationBody → Nat
  | .createClaimableBalance op => op.nesting
  | .revokeSponsorship op => op.nesting
  | .invokeHostFunction op => op.nesting
  | _ => 0

theorem OperationBody.regular (k : Nat) :
    Regular k OperationBody.schema.wire OperationBody.nesting := by
  refine .union_of_parts (fun a => by cases a <;> rfl) rfl ?_
  exact .of rfl (CreateAccountOp.flat k) <| .of rfl (PaymentOp.flat k) <|
    .of rfl (PathPaymentStrictReceiveOp.flat k) <| .of rfl (ManageSellOfferOp.flat k) <|
    .of rfl (CreatePassiveSellOfferOp.flat k) <| .of rfl (SetOptionsOp.flat k) <|
    .of rfl (ChangeTrustOp.flat k) <| .retired <| .of rfl (MuxedAccount.flat k) <| .retired <|
    .of rfl (ManageDataOp.flat k) <| .of rfl (BumpSequenceOp.flat k) <|
    .of rfl (ManageBuyOfferOp.flat k) <| .of rfl (PathPaymentStrictSendOp.flat k) <|
    .of rfl (CreateClaimableBalanceOp.regular k) <| .of rfl (ClaimClaimableBalanceOp.flat k) <|
    .of rfl (BeginSponsoringFutureReservesOp.flat k) <| .bare rfl rfl <|
    .of rfl (RevokeSponsorshipOp.regular k) <| .of rfl (ClawbackOp.flat k) <|
    .of rfl (ClawbackClaimableBalanceOp.flat k) <| .of rfl (SetTrustLineFlagsOp.flat k) <|
    .of rfl (LiquidityPoolDepositOp.flat k) <| .of rfl (LiquidityPoolWithdrawOp.flat k) <|
    .of rfl (InvokeHostFunctionOp.regular k) <| .of rfl (ExtendFootprintTtlOp.flat k) <|
    .of rfl (RestoreFootprintOp.flat k) .nil

def Operation.nesting (op : Operation) : Nat := op.body.nesting

theorem Operation.regular (k : Nat) : Regular k Operation.schema.wire Operation.nesting :=
  .imap rfl rfl <| .behind MuxedAccount.flat.optional (OperationBody.regular k)

end LedgerWire
