/-
# Entries of trust, offers, balances and pools

What the ledger keeps of an account's holdings: the lines of trust in assets, the offers to trade
them, the balances set aside for claimants, and the pools that trade two assets.

* `TrustLineEntry`, `OfferEntry`, `ClaimableBalanceEntry`, `LiquidityPoolEntry` — the entries.
* `ClaimableBalanceEntry.validate` — the rules that a balance is written under.
-/

import LedgerWire.Claim.Predicate
import LedgerWire.Entry.Account
import LedgerWire.Entry.Key
import LedgerWire.Price

namespace LedgerWire

open Schema

/-! ### Trust lines -/

/-- The second extension of a trust line: the pools that use it. -/
structure TrustLineEntryExtensionV2 where
  liquidityPoolUseCount : Int32
  deriving DecidableEq, Repr

/-- On the wire and in JSON, before a reserved slot. -/
def TrustLineEntryExtensionV2.schema : Schema TrustLineEntryExtensionV2 :=
  (field "liquidity_pool_use_count" .i32 >> field "ext" reserved).record
    (fun (liquidityPoolUseCount, ()) => ⟨liquidityPoolUseCount⟩)
    fun x => (x.liquidityPoolUseCount, ())

/-- The first extension of a trust line: amounts committed to offers. -/
structure TrustLineEntryV1 where
  liabilities : Liabilities
  ext : Option TrustLineEntryExtensionV2
  deriving DecidableEq, Repr

def TrustLineEntryV1.schema : Schema TrustLineEntryV1 :=
  (field "liabilities" Liabilities.schema
    >> field "ext" (.extension 2 "TrustLineEntryV1.ext" TrustLineEntryExtensionV2.schema)).record
    (fun (liabilities, ext) => ⟨liabilities, ext⟩) fun x => (x.liabilities, x.ext)

/-- How much of an asset an account holds, and how much it is willing to hold. -/
structure TrustLineEntry where
  accountId : AccountId
  asset : TrustLineAsset
  balance : Amount
  limit : Amount
  flags : UInt32
  ext : Option TrustLineEntryV1
  deriving DecidableEq, Repr

def TrustLineEntry.schema : Schema TrustLineEntry :=
  (field "account_id" AccountId.schema >> field "asset" TrustLineAsset.schema
    >> field "balance" Amount.schema >> field "limit" Amount.schema >> field "flags" .u32
    >> field "ext" (.extension 1 "TrustLineEntry.ext" TrustLineEntryV1.schema)).record
    (fun (accountId, asset, balance, limit, flags, ext) =>
      ⟨accountId, asset, balance, limit, flags, ext⟩)
    fun t => (t.accountId, t.asset, t.balance, t.limit, t.flags, t.ext)

/-! ### Offers -/

/-- An amount of an asset for sale at a price in another. -/
structure OfferEntry where
  sellerId : AccountId
  offerId : Int64
  selling : Asset
  buying : Asset
  amount : Amount
  price : Price
  flags : UInt32
  deriving DecidableEq, Repr

/-- On the wire and in JSON, before a reserved slot. -/
def OfferEntry.schema : Schema OfferEntry :=
  (field "seller_id" AccountId.schema >> field "offer_id" .i64 >> field "selling" Asset.schema
    >> field "buying" Asset.schema >> field "amount" Amount.schema >> field "price" Price.schema
    >> field "flags" .u32 >> field "ext" reserved).record
    (fun (sellerId, offerId, selling, buying, amount, price, flags, ()) =>
      ⟨sellerId, offerId, selling, buying, amount, price, flags⟩)
    fun o => (o.sellerId, o.offerId, o.selling, o.buying, o.amount, o.price, o.flags, ())

/-! ### Claimable balances -/

structure ClaimableBalanceEntryExtensionV1 where
  flags : UInt32
  deriving DecidableEq, Repr

/-- On the wire and in JSON, behind a reserved slot. -/
def ClaimableBalanceEntryExtensionV1.schema : Schema ClaimableBalanceEntryExtensionV1 :=
  (field "ext" reserved >> field "flags" .u32).record (fun ((), flags) => ⟨flags⟩)
    fun x => ((), x.flags)

/-- An amount of an asset set aside for claimants. -/
structure ClaimableBalanceEntry where
  balanceId : ClaimableBalanceId
  claimants : List Claimant
  asset : Asset
  amount : Amount
  ext : Option ClaimableBalanceEntryExtensionV1
  deriving DecidableEq, Repr

namespace ClaimableBalanceEntry

/-- The asset is valid, the amount above zero, and the number of claimants within its bounds. -/
def validate (b : ClaimableBalanceEntry) : Except WireError Unit := do
  b.asset.validate
  b.amount.requirePositive "amount"
  checkClaimants b.claimants

def make (balanceId : ClaimableBalanceId) (claimants : List Claimant) (asset : Asset)
    (amount : Amount) : Except WireError ClaimableBalanceEntry :=
  checked validate ⟨balanceId, claimants, asset, amount, none⟩

def schema : Schema ClaimableBalanceEntry :=
  ((field "balance_id" ClaimableBalanceId.schema
    >> field "claimants" (.array Limits.claimants "ClaimableBalanceEntry.claimants" "claimants"
        Claimant.schema)
    >> field "asset" Asset.schema >> field "amount" Amount.schema
    >> field "ext" (.extension 1 "ClaimableBalanceEntry.ext"
        ClaimableBalanceEntryExtensionV1.schema)).record
    (fun (balanceId, claimants, asset, amount, ext) => ⟨balanceId, claimants, asset, amount, ext⟩)
    fun b => (b.balanceId, b.claimants, b.asset, b.amount, b.ext)).guarded validate

end ClaimableBalanceEntry

/-! ### Liquidity pools -/

/-- A pool with its reserves and its shares. -/
structure LiquidityPoolEntry where
  poolId : PoolId
  params : LiquidityPoolParameters
  reserveA : Amount
  reserveB : Amount
  totalPoolShares : Amount
  trustLineCount : Int64
  deriving DecidableEq, Repr

def LiquidityPoolEntry.schema : Schema LiquidityPoolEntry :=
  (field "liquidity_pool_id" PoolId.schema >> field "params" LiquidityPoolParameters.schema
    >> field "reserve_a" Amount.schema >> field "reserve_b" Amount.schema
    >> field "total_pool_shares" Amount.schema
    >> field "pool_shares_trust_line_count" .i64).record
    (fun (poolId, params, reserveA, reserveB, totalPoolShares, trustLineCount) =>
      ⟨poolId, params, reserveA, reserveB, totalPoolShares, trustLineCount⟩)
    fun p => (p.poolId, p.params, p.reserveA, p.reserveB, p.totalPoolShares, p.trustLineCount)

end LedgerWire
