/-
# Operations on trust lines

An account opens a line of trust in an asset up to a limit; the asset's issuer allows the line, and
can take back what it holds.

* `ChangeTrustOp`, `SetTrustLineFlagsOp`, `ClawbackOp` — the operations.
-/

import LedgerWire.Asset.Pool
import LedgerWire.Operation.Rules

namespace LedgerWire

open Schema

/-- Opens a line or changes its limit; the limit 0 closes it. -/
structure ChangeTrustOp where
  line : ChangeTrustAsset
  limit : Amount := .max
  deriving DecidableEq, Repr

namespace ChangeTrustOp

/-- The line is not for the native asset and is valid, and the limit is not negative. -/
def validate (op : ChangeTrustOp) : Except WireError Unit := do
  if op.line = .native then throw (.validation "line" .nativeLine)
  op.line.validate
  op.limit.requireNonNegative "limit"

def schema : Schema ChangeTrustOp :=
  ((field "line" ChangeTrustAsset.schema >> field "limit" Amount.schema).record
    (fun (line, limit) => ⟨line, limit⟩) fun op => (op.line, op.limit)).guarded validate

end ChangeTrustOp

/-- Changes the flags of an account's line in an asset. -/
structure SetTrustLineFlagsOp where
  trustor : AccountId
  asset : Asset
  clearFlags : UInt32
  setFlags : UInt32
  deriving DecidableEq, Repr

namespace SetTrustLineFlagsOp

/-- The asset has an issuer and is valid, and the flags are in use and in one of the two sets. -/
def validate (op : SetTrustLineFlagsOp) : Except WireError Unit := do
  requireCredit "asset" op.asset
  checkFlags Limits.trustLineFlags "clear_flags" op.clearFlags
  checkFlags Limits.trustLineFlags "set_flags" op.setFlags
  if op.clearFlags &&& op.setFlags ≠ 0 then
    throw (.validation "set_flags" .flagSetAndCleared)

def schema : Schema SetTrustLineFlagsOp :=
  ((field "trustor" AccountId.schema >> field "asset" Asset.schema >> field "clear_flags" .u32
    >> field "set_flags" .u32).record
    (fun (trustor, asset, clearFlags, setFlags) => ⟨trustor, asset, clearFlags, setFlags⟩)
    fun op => (op.trustor, op.asset, op.clearFlags, op.setFlags)).guarded validate

end SetTrustLineFlagsOp

/-- Takes an amount of an asset back from an account. -/
structure ClawbackOp where
  asset : Asset
  source : MuxedAccount
  amount : Amount
  deriving DecidableEq, Repr

namespace ClawbackOp

/-- The asset has an issuer and is valid, and the amount is above zero. -/
def validate (op : ClawbackOp) : Except WireError Unit := do
  requireCredit "asset" op.asset
  op.amount.requirePositive "amount"

def schema : Schema ClawbackOp :=
  ((field "asset" Asset.schema >> field "from" MuxedAccount.schema
    >> field "amount" Amount.schema).record
    (fun (asset, source, amount) => ⟨asset, source, amount⟩)
    fun op => (op.asset, op.source, op.amount)).guarded validate

end ClawbackOp

end LedgerWire
