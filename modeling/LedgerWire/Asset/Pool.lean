/-
# Liquidity pools

A constant-product pool trades two assets for a fee. Its parameters name the pair in one order
only, so that a pool has one id: the hash of their wire form.

* `PoolId`, `LiquidityPoolParameters` — a pool's name and what it is the hash of.
* `LineAsset` — an asset or a pool share, as trust lines hold them; a pool share is given by the
  pool's parameters where trust is established, and by its id afterwards. Pool shares come after
  all assets.
-/

import LedgerWire.Asset.Basic
import LedgerWire.Crypto.Hash
import LedgerWire.Limits

namespace LedgerWire

/-! ### Names of pools -/

structure PoolId where
  hash : Hash
  deriving DecidableEq, Repr

namespace PoolId

/-- Pools are ordered by the hashes that name them. -/
instance : Ord PoolId where
  compare a b := compare a.hash b.hash

def strkey (p : PoolId) : String := Strkey.encode .liquidityPool p.hash.toList

def text (p : PoolId) : String := p.hash.text

/-- The pool that hexadecimal digits or a strkey name; no digit starts a pool's strkey. -/
def ofText (s : String) : Except WireError PoolId :=
  if s.toList.head? = some Strkey.Version.liquidityPool.letter then
    match Strkey.decodeFixed 32 .liquidityPool s with
    | .ok bytes => .ok ⟨⟨bytes⟩⟩
    | .error fault => .error (.validation "pool_id" (.badStrkey fault))
  else
    match Hash.ofText s with
    | .ok hash => .ok ⟨hash⟩
    | .error fault => .error (.validation "pool_id" (.badHex fault))

def schema : Schema PoolId :=
  .shownAs text ofText WireError.message (Hash.wire.imap mk hash)

end PoolId

/-! ### Parameters -/

/-- The pair of a pool, in ascending order, and its fee in basis points. -/
structure LiquidityPoolParameters where
  assetA : Asset
  assetB : Asset
  fee : Int32
  deriving DecidableEq, Repr

namespace LiquidityPoolParameters

open Schema

/-- Parameters are ordered by their first asset, then the second, then the fee. -/
instance : Ord LiquidityPoolParameters where
  compare p q :=
    (compare p.assetA q.assetA).then <|
      (compare p.assetB q.assetB).then (compare p.fee.toInt q.fee.toInt)

/-- Both assets are valid, the first comes before the second, and the fee is a share. -/
def validate (p : LiquidityPoolParameters) : Except WireError Unit := do
  p.assetA.validate
  p.assetB.validate
  if compare p.assetA p.assetB ≠ .lt then
    throw (.validation "liquidity_pool_assets" (.unordered p.assetA.text p.assetB.text))
  if p.fee < 0 ∨ Limits.poolFeeEnd ≤ p.fee then
    throw (.validation "liquidity_pool_fee" (.feeOutside p.fee.toInt Limits.poolFeeEnd.toInt))

/-- The parameters of a pool with the given fee. A pair out of order is refused, not swapped. -/
def withFee (assetA assetB : Asset) (fee : Int32) : Except WireError LiquidityPoolParameters :=
  checked validate ⟨assetA, assetB, fee⟩

/-- The parameters of a pool with the usual fee. -/
def make (assetA assetB : Asset) : Except WireError LiquidityPoolParameters :=
  withFee assetA assetB Limits.poolFee

def schema : Schema LiquidityPoolParameters :=
  (behind "LiquidityPoolType" 0 <|
    (field "asset_a" Asset.schema >> field "asset_b" Asset.schema >> field "fee" .i32).record
      (fun (assetA, assetB, fee) => ⟨assetA, assetB, fee⟩)
      fun p => (p.assetA, p.assetB, p.fee)).guarded validate

/-- What the name of the pool is the hash of. -/
def idPreimage (p : LiquidityPoolParameters) : Except WireError Bytes := schema.wire.encode p

def poolId (p : LiquidityPoolParameters) : Except WireError PoolId :=
  p.idPreimage.map fun bytes => ⟨sha256 bytes⟩

end LiquidityPoolParameters

/-! ### What trust lines hold -/

/-- An asset of some kind, or a share of a pool. -/
inductive LineAsset (Share : Type) where
  | native
  | credit (width : CodeWidth) (credit : Credit)
  | poolShare (share : Share)
  deriving DecidableEq, Repr

/-- What trust is established in: pool shares are given by the pool's parameters. -/
abbrev ChangeTrustAsset : Type := LineAsset LiquidityPoolParameters

/-- What a trust line holds: pool shares are given by the pool's name. -/
abbrev TrustLineAsset : Type := LineAsset PoolId

namespace LineAsset

variable {Share : Type}

/-- The asset, where a pool share may stand as well. -/
def asset : Asset → LineAsset Share
  | .native => .native
  | .credit width c => .credit width c

def asset? : LineAsset Share → Option Asset
  | .native => some .native
  | .credit width c => some (.credit width c)
  | .poolShare _ => none

def share? : LineAsset Share → Option Share
  | .poolShare s => some s
  | _ => none

/-- An asset on a line is the asset it was made from. -/
@[simp] theorem asset?_asset (a : Asset) : asset? (asset a : LineAsset Share) = some a := by
  cases a with
  | native => rfl
  | credit width c => rfl

/-- The two shapes of a plain asset lose nothing: different assets give different lines. -/
theorem asset_inj {a b : Asset} : (asset a : LineAsset Share) = asset b ↔ a = b := by
  refine ⟨fun h => ?_, congrArg asset⟩
  have hread := congrArg asset? h
  rwa [asset?_asset, asset?_asset, Option.some_inj] at hread

/-- A pool share is no asset, whatever names the share. -/
theorem poolShare_ne_asset (s : Share) (a : Asset) : poolShare s ≠ asset a := by
  intro h
  have hread := congrArg asset? h
  rw [asset?_asset] at hread
  cases hread

/-- What trust lines hold is an asset or a pool share. -/
@[elab_as_elim]
theorem assetOrShare {motive : LineAsset Share → Prop} (x : LineAsset Share)
    (asset : ∀ a : Asset, motive (asset a)) (poolShare : ∀ s : Share, motive (poolShare s)) :
    motive x :=
  match x with
  | .native => asset .native
  | .credit width c => asset (.credit width c)
  | .poolShare s => poolShare s

/-- The plain assets among the lines are exactly the converted ones. -/
theorem asset?_eq_some_iff {x : LineAsset Share} {a : Asset} : x.asset? = some a ↔ x = asset a := by
  cases x using assetOrShare with
  | asset b => rw [asset?_asset, Option.some_inj, asset_inj]
  | poolShare s => exact iff_of_false nofun (poolShare_ne_asset s a)

/-- Assets keep their order; pool shares come after them, in an order of their own. -/
instance [Ord Share] : Ord (LineAsset Share) where
  compare
    | .poolShare s, .poolShare t => compare s t
    | .poolShare _, _ => .gt
    | _, .poolShare _ => .lt
    | x, y => compare x.asset? y.asset?

/-- A pool share is one more arm beside those of an asset. -/
def schemaOf (share : Schema Share) : Schema (LineAsset Share) :=
  .union "AssetType"
    (Asset.arms .asset asset? ++ [.of 3 "pool_share" share .poolShare share?])

end LineAsset

namespace ChangeTrustAsset

/-- A credit or the parameters of a pool obey their rules. -/
def validate : ChangeTrustAsset → Except WireError Unit
  | .native => .ok ()
  | .credit width c => c.validate width
  | .poolShare p => p.validate

/-- A line of trust in an asset is held to the asset's own rules. -/
theorem validate_asset (a : Asset) : validate (.asset a) = a.validate := by
  cases a with
  | native => rfl
  | credit width c => rfl

def schema : Schema ChangeTrustAsset := LineAsset.schemaOf LiquidityPoolParameters.schema

end ChangeTrustAsset

namespace TrustLineAsset

def schema : Schema TrustLineAsset := LineAsset.schemaOf PoolId.schema

end TrustLineAsset

end LedgerWire
