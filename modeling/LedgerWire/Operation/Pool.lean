/-
# Operations on liquidity pools

Amounts of both assets of a pool are put into it for shares, as long as their ratio is in a window
of prices, and are taken out again.

* `LiquidityPoolDepositOp`, `LiquidityPoolWithdrawOp` — the operations.
-/

import LedgerWire.Asset.Pool
import LedgerWire.Operation.Rules
import LedgerWire.Price

namespace LedgerWire

open Schema

/-- Puts in at most so much of either asset, at a price within a window. -/
structure LiquidityPoolDepositOp where
  poolId : PoolId
  maxAmountA : Amount
  maxAmountB : Amount
  minPrice : Price
  maxPrice : Price
  deriving DecidableEq, Repr

namespace LiquidityPoolDepositOp

/-- Both amounts are above zero, both prices valid, and the window is not empty. The prices are
compared by products across, which are exact. -/
def validate (op : LiquidityPoolDepositOp) : Except WireError Unit := do
  op.maxAmountA.requirePositive "max_amount_a"
  op.maxAmountB.requirePositive "max_amount_b"
  op.minPrice.validate
  op.maxPrice.validate
  if op.maxPrice.n.toInt * op.minPrice.d.toInt < op.minPrice.n.toInt * op.maxPrice.d.toInt then
    throw (.validation "min_price" .aboveMaxPrice)

def schema : Schema LiquidityPoolDepositOp :=
  ((field "liquidity_pool_id" PoolId.schema >> field "max_amount_a" Amount.schema
    >> field "max_amount_b" Amount.schema >> field "min_price" Price.schema
    >> field "max_price" Price.schema).record
    (fun (poolId, maxAmountA, maxAmountB, minPrice, maxPrice) =>
      ⟨poolId, maxAmountA, maxAmountB, minPrice, maxPrice⟩)
    fun op => (op.poolId, op.maxAmountA, op.maxAmountB, op.minPrice, op.maxPrice)).guarded validate

end LiquidityPoolDepositOp

/-- Gives up shares for at least so much of either asset. -/
structure LiquidityPoolWithdrawOp where
  poolId : PoolId
  amount : Amount
  minAmountA : Amount
  minAmountB : Amount
  deriving DecidableEq, Repr

namespace LiquidityPoolWithdrawOp

/-- The shares are above zero, and the other amounts not negative. -/
def validate (op : LiquidityPoolWithdrawOp) : Except WireError Unit := do
  op.amount.requirePositive "amount"
  op.minAmountA.requireNonNegative "min_amount_a"
  op.minAmountB.requireNonNegative "min_amount_b"

def schema : Schema LiquidityPoolWithdrawOp :=
  ((field "liquidity_pool_id" PoolId.schema >> field "amount" Amount.schema
    >> field "min_amount_a" Amount.schema >> field "min_amount_b" Amount.schema).record
    (fun (poolId, amount, minAmountA, minAmountB) => ⟨poolId, amount, minAmountA, minAmountB⟩)
    fun op => (op.poolId, op.amount, op.minAmountA, op.minAmountB)).guarded validate

end LiquidityPoolWithdrawOp

end LedgerWire
