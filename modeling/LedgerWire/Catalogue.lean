/-
# The catalogue of ledger data

All types of the format that have a wire form of their own, by name.

* `catalogue` — the types; `DataType.ofName?` finds one.
* `orderedTypes` — the types whose values have an order.
* `enumerations` — the types that are nothing but a list of names.
-/

import LedgerWire.Contract.Footprint
import LedgerWire.DataType
import LedgerWire.Entry.Basic
import LedgerWire.Operation.Basic

namespace LedgerWire

namespace Catalogue

/-! ### All types -/

def words : List DataType :=
  [ ⟨"u32", UInt32, .u32⟩, ⟨"i32", Int32, .i32⟩, ⟨"u64", UInt64, .u64⟩, ⟨"i64", Int64, .i64⟩,
    ⟨"bool", Bool, .bool⟩, ⟨"ExtensionPoint", Unit, .reserved⟩ ]

def names : List DataType :=
  [ ⟨"Amount", Amount, Amount.schema⟩, ⟨"Price", Price, Price.schema⟩,
    ⟨"Hash", Hash, Hash.schema⟩, ⟨"AccountId", AccountId, AccountId.schema⟩,
    ⟨"MuxedAccount", MuxedAccount, MuxedAccount.schema⟩,
    ⟨"ContractId", ContractId, ContractId.schema⟩, ⟨"ScAddress", ScAddress, ScAddress.schema⟩,
    ⟨"SignerKey", SignerKey, SignerKey.schema⟩, ⟨"Signer", Signer, Signer.schema⟩ ]

def assets : List DataType :=
  [ ⟨"AlphaNum4", Credit, Credit.schema .four⟩, ⟨"AlphaNum12", Credit, Credit.schema .twelve⟩,
    ⟨"Asset", Asset, Asset.schema⟩, ⟨"PoolId", PoolId, PoolId.schema⟩,
    ⟨"LiquidityPoolParameters", LiquidityPoolParameters, LiquidityPoolParameters.schema⟩,
    ⟨"ChangeTrustAsset", ChangeTrustAsset, ChangeTrustAsset.schema⟩,
    ⟨"TrustLineAsset", TrustLineAsset, TrustLineAsset.schema⟩,
    ⟨"ClaimPredicate", ClaimPredicate, ClaimPredicate.schema⟩,
    ⟨"Claimant", Claimant, Claimant.schema⟩,
    ⟨"ClaimableBalanceId", ClaimableBalanceId, ClaimableBalanceId.schema⟩ ]

def settings : List DataType :=
  [ ⟨"ConfigSettingId", ConfigSetting.Id, ConfigSetting.Id.schema⟩,
    ⟨"ConfigSettingContractComputeV0", ConfigSetting.Compute, ConfigSetting.Compute.schema⟩,
    ⟨"ConfigSettingContractLedgerCostV0", ConfigSetting.LedgerCost,
      ConfigSetting.LedgerCost.schema⟩,
    ⟨"ConfigSettingContractHistoricalDataV0", ConfigSetting.HistoricalData,
      ConfigSetting.HistoricalData.schema⟩,
    ⟨"ConfigSettingContractEventsV0", ConfigSetting.Events, ConfigSetting.Events.schema⟩,
    ⟨"ConfigSettingContractBandwidthV0", ConfigSetting.Bandwidth, ConfigSetting.Bandwidth.schema⟩,
    ⟨"StateArchivalSettings", ConfigSetting.StateArchival, ConfigSetting.StateArchival.schema⟩,
    ⟨"ConfigSettingContractExecutionLanesV0", ConfigSetting.ExecutionLanes,
      ConfigSetting.ExecutionLanes.schema⟩,
    ⟨"EvictionIterator", ConfigSetting.EvictionIterator, ConfigSetting.EvictionIterator.schema⟩,
    ⟨"ConfigSettingContractParallelComputeV0", ConfigSetting.ParallelCompute,
      ConfigSetting.ParallelCompute.schema⟩,
    ⟨"ConfigSettingContractLedgerCostExtV0", ConfigSetting.LedgerCostExtension,
      ConfigSetting.LedgerCostExtension.schema⟩,
    ⟨"ConfigSettingScpTiming", ConfigSetting.ScpTiming, ConfigSetting.ScpTiming.schema⟩,
    ⟨"ContractCostParamEntry", ConfigSetting.CostParameter, ConfigSetting.CostParameter.schema⟩,
    ⟨"ConfigSettingEntry", ConfigSetting, ConfigSetting.schema⟩ ]

def entries : List DataType :=
  [ ⟨"LedgerEntryType", LedgerEntryType, LedgerEntryType.schema⟩,
    ⟨"ContractDataDurability", ContractDataDurability, ContractDataDurability.schema⟩,
    ⟨"LedgerKey", LedgerKey, LedgerKey.schema⟩, ⟨"Liabilities", Liabilities, Liabilities.schema⟩,
    ⟨"Thresholds", Thresholds, Thresholds.schema⟩,
    ⟨"AccountEntry", AccountEntry, AccountEntry.schema⟩,
    ⟨"AccountEntryExtensionV1", AccountEntryExtensionV1, AccountEntryExtensionV1.schema⟩,
    ⟨"AccountEntryExtensionV2", AccountEntryExtensionV2, AccountEntryExtensionV2.schema⟩,
    ⟨"AccountEntryExtensionV3", AccountEntryExtensionV3, AccountEntryExtensionV3.schema⟩,
    ⟨"TrustLineEntry", TrustLineEntry, TrustLineEntry.schema⟩,
    ⟨"TrustLineEntryV1", TrustLineEntryV1, TrustLineEntryV1.schema⟩,
    ⟨"TrustLineEntryExtensionV2", TrustLineEntryExtensionV2, TrustLineEntryExtensionV2.schema⟩,
    ⟨"OfferEntry", OfferEntry, OfferEntry.schema⟩, ⟨"DataEntry", DataEntry, DataEntry.schema⟩,
    ⟨"ClaimableBalanceEntry", ClaimableBalanceEntry, ClaimableBalanceEntry.schema⟩,
    ⟨"ClaimableBalanceEntryExtensionV1", ClaimableBalanceEntryExtensionV1,
      ClaimableBalanceEntryExtensionV1.schema⟩,
    ⟨"LiquidityPoolEntry", LiquidityPoolEntry, LiquidityPoolEntry.schema⟩,
    ⟨"ContractDataEntry", ContractDataEntry, ContractDataEntry.schema⟩,
    ⟨"ContractCodeCostInputs", ContractCodeCostInputs, ContractCodeCostInputs.schema⟩,
    ⟨"ContractCodeEntryV1", ContractCodeEntryV1, ContractCodeEntryV1.schema⟩,
    ⟨"ContractCodeEntry", ContractCodeEntry, ContractCodeEntry.schema⟩,
    ⟨"TtlEntry", TtlEntry, TtlEntry.schema⟩,
    ⟨"LedgerEntryData", LedgerEntryData, LedgerEntryData.schema⟩,
    ⟨"LedgerEntryExtensionV1", LedgerEntryExtensionV1, LedgerEntryExtensionV1.schema⟩,
    ⟨"LedgerEntry", LedgerEntry, LedgerEntry.schema⟩ ]

def contracts : List DataType :=
  [ ⟨"ScErrorType", ScErrorType, ScErrorType.schema⟩,
    ⟨"ScErrorCode", ScErrorCode, ScErrorCode.schema⟩, ⟨"ScError", ScError, ScError.schema⟩,
    ⟨"Int128Parts", Int128Parts, Int128Parts.schema⟩,
    ⟨"UInt128Parts", UInt128Parts, UInt128Parts.schema⟩,
    ⟨"Int256Parts", Int256Parts, Int256Parts.schema⟩,
    ⟨"UInt256Parts", UInt256Parts, UInt256Parts.schema⟩,
    ⟨"ContractExecutable", ContractExecutable, ContractExecutable.schema⟩,
    ⟨"ScMapEntry", ScMapEntry, ScMapEntry.schema⟩,
    ⟨"ScContractInstance", ScContractInstance, ScContractInstance.schema⟩,
    ⟨"ScVal", ScVal, ScVal.schema⟩,
    ⟨"ContractIdAddressPreimage", ContractIdAddressPreimage, ContractIdAddressPreimage.schema⟩,
    ⟨"ContractIdPreimage", ContractIdPreimage, ContractIdPreimage.schema⟩,
    ⟨"InvokeContractArgs", InvokeContractArgs, InvokeContractArgs.schema⟩,
    ⟨"CreateContractArgs", CreateContractArgs, CreateContractArgs.schema⟩,
    ⟨"CreateContractArgsV2", CreateContractArgsV2, CreateContractArgsV2.schema⟩,
    ⟨"HostFunction", HostFunction, HostFunction.schema⟩,
    ⟨"SorobanAuthorizedFunction", SorobanAuthorizedFunction, SorobanAuthorizedFunction.schema⟩,
    ⟨"SorobanAuthorizedInvocation", SorobanAuthorizedInvocation,
      SorobanAuthorizedInvocation.schema⟩,
    ⟨"SorobanAddressCredentials", SorobanAddressCredentials, SorobanAddressCredentials.schema⟩,
    ⟨"SorobanCredentials", SorobanCredentials, SorobanCredentials.schema⟩,
    ⟨"SorobanAuthorizationEntry", SorobanAuthorizationEntry, SorobanAuthorizationEntry.schema⟩,
    ⟨"LedgerFootprint", LedgerFootprint, LedgerFootprint.schema⟩,
    ⟨"SorobanResources", SorobanResources, SorobanResources.schema⟩,
    ⟨"SorobanResourcesExtV0", SorobanResourcesExtV0, SorobanResourcesExtV0.schema⟩,
    ⟨"SorobanTransactionData", SorobanTransactionData, SorobanTransactionData.schema⟩ ]

def operations : List DataType :=
  [ ⟨"OperationType", OperationType, OperationType.schema⟩,
    ⟨"CreateAccountOp", CreateAccountOp, CreateAccountOp.schema⟩,
    ⟨"BumpSequenceOp", BumpSequenceOp, BumpSequenceOp.schema⟩,
    ⟨"BeginSponsoringFutureReservesOp", BeginSponsoringFutureReservesOp,
      BeginSponsoringFutureReservesOp.schema⟩,
    ⟨"RevokeSponsorshipOp", RevokeSponsorshipOp, RevokeSponsorshipOp.schema⟩,
    ⟨"SetOptionsOp", SetOptionsOp, SetOptionsOp.schema⟩,
    ⟨"ManageDataOp", ManageDataOp, ManageDataOp.schema⟩,
    ⟨"PaymentOp", PaymentOp, PaymentOp.schema⟩,
    ⟨"PathPaymentStrictReceiveOp", PathPaymentStrictReceiveOp, PathPaymentStrictReceiveOp.schema⟩,
    ⟨"PathPaymentStrictSendOp", PathPaymentStrictSendOp, PathPaymentStrictSendOp.schema⟩,
    ⟨"ManageSellOfferOp", ManageSellOfferOp, ManageSellOfferOp.schema⟩,
    ⟨"ManageBuyOfferOp", ManageBuyOfferOp, ManageBuyOfferOp.schema⟩,
    ⟨"CreatePassiveSellOfferOp", CreatePassiveSellOfferOp, CreatePassiveSellOfferOp.schema⟩,
    ⟨"LiquidityPoolDepositOp", LiquidityPoolDepositOp, LiquidityPoolDepositOp.schema⟩,
    ⟨"LiquidityPoolWithdrawOp", LiquidityPoolWithdrawOp, LiquidityPoolWithdrawOp.schema⟩,
    ⟨"InvokeHostFunctionOp", InvokeHostFunctionOp, InvokeHostFunctionOp.schema⟩,
    ⟨"ExtendFootprintTtlOp", ExtendFootprintTtlOp, ExtendFootprintTtlOp.schema⟩,
    ⟨"RestoreFootprintOp", RestoreFootprintOp, RestoreFootprintOp.schema⟩,
    ⟨"CreateClaimableBalanceOp", CreateClaimableBalanceOp, CreateClaimableBalanceOp.schema⟩,
    ⟨"ClaimClaimableBalanceOp", ClaimClaimableBalanceOp, ClaimClaimableBalanceOp.schema⟩,
    ⟨"ClawbackClaimableBalanceOp", ClawbackClaimableBalanceOp, ClawbackClaimableBalanceOp.schema⟩,
    ⟨"ChangeTrustOp", ChangeTrustOp, ChangeTrustOp.schema⟩,
    ⟨"SetTrustLineFlagsOp", SetTrustLineFlagsOp, SetTrustLineFlagsOp.schema⟩,
    ⟨"ClawbackOp", ClawbackOp, ClawbackOp.schema⟩,
    ⟨"OperationBody", OperationBody, OperationBody.schema⟩,
    ⟨"Operation", Operation, Operation.schema⟩ ]

end Catalogue

/-- All types. -/
def catalogue : List DataType :=
  Catalogue.words ++ Catalogue.names ++ Catalogue.assets ++ Catalogue.settings
    ++ Catalogue.entries ++ Catalogue.contracts ++ Catalogue.operations

def DataType.ofName? (name : String) : Option DataType := catalogue.find? (·.name == name)

/-! ### Ordered types -/

/-- A type whose values are shown in JSON, with an order of them. -/
structure OrderedType : Type 1 where
  name : String
  Value : Type
  json : Json.Form Value
  compare : Value → Value → Ordering

namespace OrderedType

def of {α : Type} [Ord α] (name : String) (json : Json.Form α) : OrderedType :=
  ⟨name, α, json, Ord.compare⟩

/-- The values in ascending order; equal ones stay in theirs. -/
def sort (t : OrderedType) (items : List t.Value) : List t.Value :=
  items.mergeSort fun a b => (t.compare a b).isLE

end OrderedType

def orderedTypes : List OrderedType :=
  [ .of "Asset" Asset.schema.json, .of "ChangeTrustAsset" ChangeTrustAsset.schema.json,
    .of "TrustLineAsset" TrustLineAsset.schema.json,
    .of "LiquidityPoolParameters" LiquidityPoolParameters.schema.json,
    .of "PoolId" PoolId.schema.json, .of "ClaimableBalanceId" ClaimableBalanceId.schema.json,
    .of "ContractId" ContractId.schema.json, .of "Hash" Hash.schema.json,
    .of "Amount" Amount.schema.json, .of "OperationType" OperationType.schema.json,
    .of "ThresholdLevel" ThresholdLevel.enumeration.json ]

def OrderedType.ofName? (name : String) : Option OrderedType :=
  orderedTypes.find? (·.name == name)

/-! ### Enumerations -/

structure AnyEnumeration : Type 1 where
  Value : Type
  enumeration : Enumeration Value

namespace AnyEnumeration

def entries (e : AnyEnumeration) : List (String × Int32) :=
  e.enumeration.all.map fun a => (e.enumeration.name a, e.enumeration.number a)

def nameOf? (e : AnyEnumeration) (n : Int32) : Option String :=
  (e.enumeration.ofNumber? n).map e.enumeration.name

end AnyEnumeration

def enumerations : List AnyEnumeration :=
  [ ⟨_, OperationType.enumeration⟩, ⟨_, LedgerEntryType.enumeration⟩,
    ⟨_, ContractDataDurability.enumeration⟩, ⟨_, ConfigSetting.Id.enumeration⟩,
    ⟨_, ScErrorType.enumeration⟩, ⟨_, ScErrorCode.enumeration⟩ ]

def AnyEnumeration.ofName? (name : String) : Option AnyEnumeration :=
  enumerations.find? (·.enumeration.kind == name)

end LedgerWire
