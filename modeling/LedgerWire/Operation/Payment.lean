/-
# Payments

An amount goes from one account to another, either as it is or exchanged on the way through up to
five other assets.

* `PaymentOp` — a payment in one asset.
* `PathPaymentStrictReceiveOp`, `PathPaymentStrictSendOp` — exchanges, in which what arrives or
  what is sent is exact.
-/

import LedgerWire.Account
import LedgerWire.Operation.Rules

namespace LedgerWire

open Schema

structure PaymentOp where
  destination : MuxedAccount
  asset : Asset
  amount : Amount
  deriving DecidableEq, Repr

namespace PaymentOp

/-- The asset is valid, and the amount above zero. -/
def validate (op : PaymentOp) : Except WireError Unit := do
  op.asset.validate
  op.amount.requirePositive "amount"

def schema : Schema PaymentOp :=
  ((field "destination" MuxedAccount.schema >> field "asset" Asset.schema
    >> field "amount" Amount.schema).record
    (fun (destination, asset, amount) => ⟨destination, asset, amount⟩)
    fun op => (op.destination, op.asset, op.amount)).guarded validate

end PaymentOp

/-- Delivers exactly an amount, and spends at most another. -/
structure PathPaymentStrictReceiveOp where
  sendAsset : Asset
  sendMax : Amount
  destination : MuxedAccount
  destAsset : Asset
  destAmount : Amount
  path : List Asset
  deriving DecidableEq, Repr

namespace PathPaymentStrictReceiveOp

/-- Both assets are valid, both amounts above zero, and the path obeys its rule. -/
def validate (op : PathPaymentStrictReceiveOp) : Except WireError Unit := do
  op.sendAsset.validate
  op.destAsset.validate
  op.sendMax.requirePositive "send_max"
  op.destAmount.requirePositive "dest_amount"
  checkPath op.path

def schema : Schema PathPaymentStrictReceiveOp :=
  ((field "send_asset" Asset.schema >> field "send_max" Amount.schema
    >> field "destination" MuxedAccount.schema >> field "dest_asset" Asset.schema
    >> field "dest_amount" Amount.schema
    >> field "path" (.array Limits.path "PathPaymentStrictReceiveOp.path" "path"
        Asset.schema)).record
    (fun (sendAsset, sendMax, destination, destAsset, destAmount, path) =>
      ⟨sendAsset, sendMax, destination, destAsset, destAmount, path⟩)
    fun op => (op.sendAsset, op.sendMax, op.destination, op.destAsset, op.destAmount,
      op.path)).guarded validate

end PathPaymentStrictReceiveOp

/-- Spends exactly an amount, and delivers at least another. -/
structure PathPaymentStrictSendOp where
  sendAsset : Asset
  sendAmount : Amount
  destination : MuxedAccount
  destAsset : Asset
  destMin : Amount
  path : List Asset
  deriving DecidableEq, Repr

namespace PathPaymentStrictSendOp

/-- Both assets are valid, both amounts above zero, and the path obeys its rule. -/
def validate (op : PathPaymentStrictSendOp) : Except WireError Unit := do
  op.sendAsset.validate
  op.destAsset.validate
  op.sendAmount.requirePositive "send_amount"
  op.destMin.requirePositive "dest_min"
  checkPath op.path

def schema : Schema PathPaymentStrictSendOp :=
  ((field "send_asset" Asset.schema >> field "send_amount" Amount.schema
    >> field "destination" MuxedAccount.schema >> field "dest_asset" Asset.schema
    >> field "dest_min" Amount.schema
    >> field "path" (.array Limits.path "PathPaymentStrictSendOp.path" "path"
        Asset.schema)).record
    (fun (sendAsset, sendAmount, destination, destAsset, destMin, path) =>
      ⟨sendAsset, sendAmount, destination, destAsset, destMin, path⟩)
    fun op => (op.sendAsset, op.sendAmount, op.destination, op.destAsset, op.destMin,
      op.path)).guarded validate

end PathPaymentStrictSendOp

end LedgerWire
