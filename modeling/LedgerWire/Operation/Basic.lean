/-
# Operations

What a transaction asks the ledger to do, one operation at a time. An operation is of a kind, has
the payload of that kind, and may name a source account of its own.

* `OperationBody` — the kinds with their payloads; `validate` is the rule of the payload.
* `Operation` — a body with its source; `Operation.make` builds one whose body obeys its rule.
-/

import LedgerWire.Operation.Account
import LedgerWire.Operation.Balance
import LedgerWire.Operation.Contract
import LedgerWire.Operation.Kind
import LedgerWire.Operation.Offer
import LedgerWire.Operation.Payment
import LedgerWire.Operation.Pool
import LedgerWire.Operation.SetOptions
import LedgerWire.Operation.Sponsorship
import LedgerWire.Operation.Trust

namespace LedgerWire

open Schema

/-- A kind of operation with its payload. -/
inductive OperationBody where
  | createAccount (op : CreateAccountOp)
  | payment (op : PaymentOp)
  | pathPaymentStrictReceive (op : PathPaymentStrictReceiveOp)
  | manageSellOffer (op : ManageSellOfferOp)
  | createPassiveSellOffer (op : CreatePassiveSellOfferOp)
  | setOptions (op : SetOptionsOp)
  | changeTrust (op : ChangeTrustOp)
  | accountMerge (destination : MuxedAccount)
  | manageData (op : ManageDataOp)
  | bumpSequence (op : BumpSequenceOp)
  | manageBuyOffer (op : ManageBuyOfferOp)
  | pathPaymentStrictSend (op : PathPaymentStrictSendOp)
  | createClaimableBalance (op : CreateClaimableBalanceOp)
  | claimClaimableBalance (op : ClaimClaimableBalanceOp)
  | beginSponsoringFutureReserves (op : BeginSponsoringFutureReservesOp)
  | endSponsoringFutureReserves
  | revokeSponsorship (op : RevokeSponsorshipOp)
  | clawback (op : ClawbackOp)
  | clawbackClaimableBalance (op : ClawbackClaimableBalanceOp)
  | setTrustLineFlags (op : SetTrustLineFlagsOp)
  | liquidityPoolDeposit (op : LiquidityPoolDepositOp)
  | liquidityPoolWithdraw (op : LiquidityPoolWithdrawOp)
  | invokeHostFunction (op : InvokeHostFunctionOp)
  | extendFootprintTtl (op : ExtendFootprintTtlOp)
  | restoreFootprint (op : RestoreFootprintOp)
  deriving DecidableEq, Repr

namespace OperationBody

def operationType : OperationBody → OperationType
  | .createAccount _ => .createAccount
  | .payment _ => .payment
  | .pathPaymentStrictReceive _ => .pathPaymentStrictReceive
  | .manageSellOffer _ => .manageSellOffer
  | .createPassiveSellOffer _ => .createPassiveSellOffer
  | .setOptions _ => .setOptions
  | .changeTrust _ => .changeTrust
  | .accountMerge _ => .accountMerge
  | .manageData _ => .manageData
  | .bumpSequence _ => .bumpSequence
  | .manageBuyOffer _ => .manageBuyOffer
  | .pathPaymentStrictSend _ => .pathPaymentStrictSend
  | .createClaimableBalance _ => .createClaimableBalance
  | .claimClaimableBalance _ => .claimClaimableBalance
  | .beginSponsoringFutureReserves _ => .beginSponsoringFutureReserves
  | .endSponsoringFutureReserves => .endSponsoringFutureReserves
  | .revokeSponsorship _ => .revokeSponsorship
  | .clawback _ => .clawback
  | .clawbackClaimableBalance _ => .clawbackClaimableBalance
  | .setTrustLineFlags _ => .setTrustLineFlags
  | .liquidityPoolDeposit _ => .liquidityPoolDeposit
  | .liquidityPoolWithdraw _ => .liquidityPoolWithdraw
  | .invokeHostFunction _ => .invokeHostFunction
  | .extendFootprintTtl _ => .extendFootprintTtl
  | .restoreFootprint _ => .restoreFootprint

def threshold (b : OperationBody) : ThresholdLevel := b.operationType.threshold

/-- The payload obeys the rule of its kind. Payloads of the kinds not listed have no rule. -/
def validate : OperationBody → Except WireError Unit
  | .createAccount op => op.validate
  | .payment op => op.validate
  | .pathPaymentStrictReceive op => op.validate
  | .manageSellOffer op => op.validate
  | .createPassiveSellOffer op => op.validate
  | .setOptions op => op.validate
  | .changeTrust op => op.validate
  | .manageData op => op.validate
  | .bumpSequence op => op.validate
  | .manageBuyOffer op => op.validate
  | .pathPaymentStrictSend op => op.validate
  | .createClaimableBalance op => op.validate
  | .revokeSponsorship op => op.validate
  | .clawback op => op.validate
  | .setTrustLineFlags op => op.validate
  | .liquidityPoolDeposit op => op.validate
  | .liquidityPoolWithdraw op => op.validate
  | .extendFootprintTtl op => op.validate
  | _ => .ok ()

/-- On the wire and in JSON. The numbers of retired kinds are known, and refused. -/
def schema : Schema OperationBody :=
  .union "OperationType"
    [ .of 0 "create_account" CreateAccountOp.schema .createAccount fun
        | .createAccount op => some op
        | _ => none,
      .of 1 "payment" PaymentOp.schema .payment fun | .payment op => some op | _ => none,
      .of 2 "path_payment_strict_receive"
        PathPaymentStrictReceiveOp.schema .pathPaymentStrictReceive fun
        | .pathPaymentStrictReceive op => some op
        | _ => none,
      .of 3 "manage_sell_offer" ManageSellOfferOp.schema .manageSellOffer fun
        | .manageSellOffer op => some op
        | _ => none,
      .of 4 "create_passive_sell_offer"
        CreatePassiveSellOfferOp.schema .createPassiveSellOffer fun
        | .createPassiveSellOffer op => some op
        | _ => none,
      .of 5 "set_options" SetOptionsOp.schema .setOptions fun
        | .setOptions op => some op
        | _ => none,
      .of 6 "change_trust" ChangeTrustOp.schema .changeTrust fun
        | .changeTrust op => some op
        | _ => none,
      .retired 7 "ALLOW_TRUST (use SET_TRUST_LINE_FLAGS)",
      .of 8 "account_merge" MuxedAccount.schema .accountMerge fun
        | .accountMerge destination => some destination
        | _ => none,
      .retired 9 "INFLATION",
      .of 10 "manage_data" ManageDataOp.schema .manageData fun
        | .manageData op => some op
        | _ => none,
      .of 11 "bump_sequence" BumpSequenceOp.schema .bumpSequence fun
        | .bumpSequence op => some op
        | _ => none,
      .of 12 "manage_buy_offer" ManageBuyOfferOp.schema .manageBuyOffer fun
        | .manageBuyOffer op => some op
        | _ => none,
      .of 13 "path_payment_strict_send" PathPaymentStrictSendOp.schema .pathPaymentStrictSend fun
        | .pathPaymentStrictSend op => some op
        | _ => none,
      .of 14 "create_claimable_balance"
        CreateClaimableBalanceOp.schema .createClaimableBalance fun
        | .createClaimableBalance op => some op
        | _ => none,
      .of 15 "claim_claimable_balance" ClaimClaimableBalanceOp.schema .claimClaimableBalance fun
        | .claimClaimableBalance op => some op
        | _ => none,
      .of 16 "begin_sponsoring_future_reserves"
        BeginSponsoringFutureReservesOp.schema .beginSponsoringFutureReserves fun
        | .beginSponsoringFutureReserves op => some op
        | _ => none,
      .bare 17 "end_sponsoring_future_reserves" .endSponsoringFutureReserves
        (· matches .endSponsoringFutureReserves),
      .of 18 "revoke_sponsorship" RevokeSponsorshipOp.schema .revokeSponsorship fun
        | .revokeSponsorship op => some op
        | _ => none,
      .of 19 "clawback" ClawbackOp.schema .clawback fun | .clawback op => some op | _ => none,
      .of 20 "clawback_claimable_balance"
        ClawbackClaimableBalanceOp.schema .clawbackClaimableBalance fun
        | .clawbackClaimableBalance op => some op
        | _ => none,
      .of 21 "set_trust_line_flags" SetTrustLineFlagsOp.schema .setTrustLineFlags fun
        | .setTrustLineFlags op => some op
        | _ => none,
      .of 22 "liquidity_pool_deposit" LiquidityPoolDepositOp.schema .liquidityPoolDeposit fun
        | .liquidityPoolDeposit op => some op
        | _ => none,
      .of 23 "liquidity_pool_withdraw" LiquidityPoolWithdrawOp.schema .liquidityPoolWithdraw fun
        | .liquidityPoolWithdraw op => some op
        | _ => none,
      .of 24 "invoke_host_function" InvokeHostFunctionOp.schema .invokeHostFunction fun
        | .invokeHostFunction op => some op
        | _ => none,
      .of 25 "extend_footprint_ttl" ExtendFootprintTtlOp.schema .extendFootprintTtl fun
        | .extendFootprintTtl op => some op
        | _ => none,
      .of 26 "restore_footprint" RestoreFootprintOp.schema .restoreFootprint fun
        | .restoreFootprint op => some op
        | _ => none ]

end OperationBody

/-- An operation. Its source account, if it has one, takes the place of the transaction's. -/
structure Operation where
  sourceAccount : Option MuxedAccount
  body : OperationBody
  deriving DecidableEq, Repr

namespace Operation

def make (body : OperationBody) (source : Option MuxedAccount := none) :
    Except WireError Operation := do
  return ⟨source, ← checked OperationBody.validate body⟩

def operationType (op : Operation) : OperationType := op.body.operationType

def threshold (op : Operation) : ThresholdLevel := op.body.threshold

def schema : Schema Operation :=
  (field "source_account" (.optional MuxedAccount.schema)
    >> field "body" OperationBody.schema).record
    (fun (sourceAccount, body) => ⟨sourceAccount, body⟩) fun op => (op.sourceAccount, op.body)

end Operation

end LedgerWire
