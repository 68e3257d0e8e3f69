/-
# Operations on claimable balances

An amount is set aside for claimants, and then claimed or taken back.

* `CreateClaimableBalanceOp`, `ClaimClaimableBalanceOp`, `ClawbackClaimableBalanceOp` — the
  operations.
-/

import LedgerWire.Claim.BalanceId
import LedgerWire.Claim.Predicate
import LedgerWire.Operation.Rules

namespace LedgerWire

open Schema

/-- Sets an amount aside for its claimants. -/
structure CreateClaimableBalanceOp where
  asset : Asset
  amount : Amount
  claimants : List Claimant
  deriving DecidableEq, Repr

namespace CreateClaimableBalanceOp

/-- The asset is valid, the amount above zero, and the number of claimants within its bounds. -/
def validate (op : CreateClaimableBalanceOp) : Except WireError Unit := do
  op.asset.validate
  op.amount.requirePositive "amount"
  checkClaimants op.claimants

def schema : Schema CreateClaimableBalanceOp :=
  ((field "asset" Asset.schema >> field "amount" Amount.schema
    >> field "claimants" (.array Limits.claimants "CreateClaimableBalanceOp.claimants"
        "claimants" Claimant.schema)).record
    (fun (asset, amount, claimants) => ⟨asset, amount, claimants⟩)
    fun op => (op.asset, op.amount, op.claimants)).guarded validate

end CreateClaimableBalanceOp

structure ClaimClaimableBalanceOp where
  balanceId : ClaimableBalanceId
  deriving DecidableEq, Repr

def ClaimClaimableBalanceOp.schema : Schema ClaimClaimableBalanceOp :=
  (field "balance_id" ClaimableBalanceId.schema).record (⟨·⟩) (·.balanceId)

structure ClawbackClaimableBalanceOp where
  balanceId : ClaimableBalanceId
  deriving DecidableEq, Repr

def ClawbackClaimableBalanceOp.schema : Schema ClawbackClaimableBalanceOp :=
  (field "balance_id" ClaimableBalanceId.schema).record (⟨·⟩) (·.balanceId)

end LedgerWire
