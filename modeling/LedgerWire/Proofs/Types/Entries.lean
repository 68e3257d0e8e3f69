/-
# Ledger entries, their keys and footprints are regular

Extensions stand in chains, each link behind the number of its version; `Flat.extension` asks of a
link only that this number is not that of an absent one. Nesting comes in through contract values,
which keys and data of contracts hold, and through the conditions of claimable balances.

* `LedgerKey.regular`, `LedgerEntry.regular`, `SorobanTransactionData.regular` — with the nesting of
  each, which is that of the values and conditions in it.
-/

import LedgerWire.Proofs.Types.Assets
import LedgerWire.Proofs.Types.Claims
import LedgerWire.Proofs.Types.Values
import LedgerWire.Contract.Footprint
import LedgerWire.Entry.Basic

namespace LedgerWire

open Codec

/-! ### Keys -/

namespace LedgerKey

def nesting : LedgerKey → Nat
  | .contractData _ key _ => key.nesting
  | _ => 0

theorem regular (k : Nat) : Regular k schema.wire nesting := by
  have hname : ((AccountId.schema.wire.both dataNameSchema.wire).guarded
      fun x => checkDataName x.2).Flat :=
    .guarded (fun x => judges_checkDataName x.2) (.both AccountId.flat (flat_text _ _ _))
  have hvalue : Regular k (ScAddress.schema.wire.both (ScVal.schema.wire.both
      ContractDataDurability.schema.wire)) fun x => x.2.1.nesting :=
    .behind ScAddress.flat <| .before ContractDataDurability.flat (ScVal.regular k)
  refine .union_of_parts (fun a => by cases a <;> rfl) rfl ?_
  exact .of rfl (AccountId.flat k) <| .of rfl ((AccountId.flat.both TrustLineAsset.flat) k) <|
    .of rfl ((AccountId.flat.both flat_i64) k) <| .of rfl (hname k) <|
    .of rfl (ClaimableBalanceId.flat k) <| .of rfl (PoolId.flat k) <| .of rfl hvalue <|
    .of rfl (Hash.flat k) <| .of rfl (ConfigSetting.Id.flat k) <| .of rfl (Hash.flat k) .nil

theorem hungry : schema.wire.get.Hungry := Get.hungry_i32.bind _

end LedgerKey

/-! ### Accounts -/

theorem Liabilities.flat : Liabilities.schema.wire.Flat :=
  .imap rfl rfl <| .both Amount.flat Amount.flat

theorem Thresholds.flat : Thresholds.schema.wire.Flat := by
  refine .imap (funext fun v => ?_) rfl (flat_fixed 4)
  apply Vector.ext
  intro i hi
  match i, hi with
  | 0, _ | 1, _ | 2, _ | 3, _ => rfl

theorem AccountEntryExtensionV3.flat : AccountEntryExtensionV3.schema.wire.Flat :=
  .imap rfl rfl <| .both Schema.flat_reserved <| .both flat_u32 flat_u64

theorem AccountEntryExtensionV2.flat : AccountEntryExtensionV2.schema.wire.Flat := by
  have hsponsors : (AccountId.schema.wire.optional.array Limits.signers "signerSponsoringIDs"
      "signer_sponsoring_ids").Flat := .array (Get.hungry_optional _) (.optional AccountId.flat)
  exact .imap rfl rfl <| .both flat_u32 <| .both flat_u32 <| .both hsponsors <|
    .extension (by decide) AccountEntryExtensionV3.flat

theorem AccountEntryExtensionV1.flat : AccountEntryExtensionV1.schema.wire.Flat :=
  .imap rfl rfl <| .both Liabilities.flat <| .extension (by decide) AccountEntryExtensionV2.flat

theorem flat_homeDomain : homeDomainSchema.wire.Flat := flat_text _ _ _

theorem AccountEntry.flat : AccountEntry.schema.wire.Flat := by
  have hsigners : (Signer.schema.wire.array Limits.signers "AccountEntry.signers" "signers").Flat :=
    .array Signer.hungry Signer.flat
  exact .guarded judges_account <| .imap rfl rfl <| .both AccountId.flat <| .both Amount.flat <|
    .both flat_i64 <| .both flat_u32 <| .both (.optional AccountId.flat) <| .both flat_u32 <|
    .both flat_homeDomain <| .both Thresholds.flat <| .both hsigners <|
    .extension (by decide) AccountEntryExtensionV1.flat

/-! ### Trust lines, offers, balances and pools -/

theorem TrustLineEntryExtensionV2.flat : TrustLineEntryExtensionV2.schema.wire.Flat :=
  .imap rfl rfl <| .both flat_i32 Schema.flat_reserved

theorem TrustLineEntryV1.flat : TrustLineEntryV1.schema.wire.Flat :=
  .imap rfl rfl <| .both Liabilities.flat <| .extension (by decide) TrustLineEntryExtensionV2.flat

theorem TrustLineEntry.flat : TrustLineEntry.schema.wire.Flat :=
  .imap rfl rfl <| .both AccountId.flat <| .both TrustLineAsset.flat <| .both Amount.flat <|
    .both Amount.flat <| .both flat_u32 <| .extension (by decide) TrustLineEntryV1.flat

theorem OfferEntry.flat : OfferEntry.schema.wire.Flat :=
  .imap rfl rfl <| .both AccountId.flat <| .both flat_i64 <| .both Asset.flat <| .both Asset.flat <|
    .both Amount.flat <| .both Price.flat <| .both flat_u32 Schema.flat_reserved

theorem ClaimableBalanceEntryExtensionV1.flat :
    ClaimableBalanceEntryExtensionV1.schema.wire.Flat :=
  .imap rfl rfl <| .both Schema.flat_reserved flat_u32

def ClaimableBalanceEntry.nesting (b : ClaimableBalanceEntry) : Nat :=
  deepest Claimant.nesting b.claimants

theorem ClaimableBalanceEntry.regular (k : Nat) :
    Regular k ClaimableBalanceEntry.schema.wire ClaimableBalanceEntry.nesting := by
  have hext : (ClaimableBalanceEntryExtensionV1.schema.wire.extension 1
      "ClaimableBalanceEntry.ext").Flat :=
    .extension (by decide) ClaimableBalanceEntryExtensionV1.flat
  exact .guarded judges_claimableBalance <| .imap rfl rfl <| .behind ClaimableBalanceId.flat <|
    .before (.both Asset.flat <| .both Amount.flat hext)
      ((Claimant.regular k).array _ _ _ Claimant.hungry)

theorem LiquidityPoolEntry.flat : LiquidityPoolEntry.schema.wire.Flat :=
  .imap rfl rfl <| .both PoolId.flat <| .both LiquidityPoolParameters.flat <| .both Amount.flat <|
    .both Amount.flat <| .both Amount.flat flat_i64

/-! ### Data and code -/

theorem flat_dataValue : dataValueSchema.wire.Flat := flat_bytes _ _ _

theorem DataEntry.flat : DataEntry.schema.wire.Flat :=
  .guarded judges_data <| .imap rfl rfl <| .both AccountId.flat <| .both (flat_text _ _ _) <|
    .both flat_dataValue Schema.flat_reserved

def ContractDataEntry.nesting (d : ContractDataEntry) : Nat := max d.key.nesting d.val.nesting

theorem ContractDataEntry.regular (k : Nat) :
    Regular k ContractDataEntry.schema.wire ContractDataEntry.nesting :=
  .imap rfl rfl <| .behind Schema.flat_reserved <| .behind ScAddress.flat <|
    .both (ScVal.regular k) <| .behind ContractDataDurability.flat (ScVal.regular k)

theorem ContractCodeCostInputs.flat : ContractCodeCostInputs.schema.wire.Flat :=
  .imap rfl rfl <| .both Schema.flat_reserved <| .both flat_u32 <| .both flat_u32 <|
    .both flat_u32 <| .both flat_u32 <| .both flat_u32 <| .both flat_u32 <| .both flat_u32 <|
    .both flat_u32 <| .both flat_u32 flat_u32

theorem ContractCodeEntryV1.flat : ContractCodeEntryV1.schema.wire.Flat :=
  .imap rfl rfl <| .both Schema.flat_reserved ContractCodeCostInputs.flat

theorem ContractCodeEntry.flat : ContractCodeEntry.schema.wire.Flat :=
  .imap rfl rfl <| .both (.extension (by decide) ContractCodeEntryV1.flat) <|
    .both Hash.flat (flat_bytes _ _ _)

theorem TtlEntry.flat : TtlEntry.schema.wire.Flat := .imap rfl rfl <| .both Hash.flat flat_u32

/-! ### Entries -/

def LedgerEntryData.nesting : LedgerEntryData → Nat
  | .claimableBalance e => e.nesting
  | .contractData e => e.nesting
  | _ => 0

theorem LedgerEntryData.regular (k : Nat) :
    Regular k LedgerEntryData.schema.wire LedgerEntryData.nesting :=
  .union_of_parts (fun a => by cases a <;> rfl) rfl <|
    .of rfl (AccountEntry.flat k) <| .of rfl (TrustLineEntry.flat k) <|
    .of rfl (OfferEntry.flat k) <| .of rfl (DataEntry.flat k) <|
    .of rfl (ClaimableBalanceEntry.regular k) <| .of rfl (LiquidityPoolEntry.flat k) <|
    .of rfl (ContractDataEntry.regular k) <| .of rfl (ContractCodeEntry.flat k) <|
    .of rfl (ConfigSetting.flat k) <| .of rfl (TtlEntry.flat k) .nil

theorem LedgerEntryExtensionV1.flat : LedgerEntryExtensionV1.schema.wire.Flat :=
  .imap rfl rfl <| .both (.optional AccountId.flat) Schema.flat_reserved

def LedgerEntry.nesting (e : LedgerEntry) : Nat := e.data.nesting

theorem LedgerEntry.regular (k : Nat) : Regular k LedgerEntry.schema.wire LedgerEntry.nesting := by
  have hext : (LedgerEntryExtensionV1.schema.wire.extension 1 "LedgerEntry.ext").Flat :=
    .extension (by decide) LedgerEntryExtensionV1.flat
  exact .imap rfl rfl <| .behind flat_u32 <| .before hext (LedgerEntryData.regular k)

/-! ### Footprints -/

def LedgerFootprint.nesting (f : LedgerFootprint) : Nat :=
  max (deepest LedgerKey.nesting f.readOnly) (deepest LedgerKey.nesting f.readWrite)

theorem LedgerFootprint.regular (k : Nat) :
    Regular k LedgerFootprint.schema.wire LedgerFootprint.nesting :=
  .imap rfl rfl <| ((LedgerKey.regular k).array _ _ _ LedgerKey.hungry).both
    ((LedgerKey.regular k).array _ _ _ LedgerKey.hungry)

def SorobanResources.nesting (r : SorobanResources) : Nat := r.footprint.nesting

theorem SorobanResources.regular (k : Nat) :
    Regular k SorobanResources.schema.wire SorobanResources.nesting :=
  .imap rfl rfl <| .before (.both flat_u32 <| .both flat_u32 flat_u32) (LedgerFootprint.regular k)

theorem SorobanResourcesExtV0.flat : SorobanResourcesExtV0.schema.wire.Flat :=
  .imap rfl rfl <| .array Get.hungry_u32 flat_u32

def SorobanTransactionData.nesting (d : SorobanTransactionData) : Nat := d.resources.nesting

theorem SorobanTransactionData.regular (k : Nat) :
    Regular k SorobanTransactionData.schema.wire SorobanTransactionData.nesting := by
  have hext : (SorobanResourcesExtV0.schema.wire.extension 1 "SorobanTransactionData.ext").Flat :=
    .extension (by decide) SorobanResourcesExtV0.flat
  exact .imap rfl rfl <| .behind hext <| .before Amount.flat (SorobanResources.regular k)

end LedgerWire
