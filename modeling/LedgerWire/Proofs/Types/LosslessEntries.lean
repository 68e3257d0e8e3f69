/-
# Entries and operations whose projections lose nothing

Network settings, the objects of the ledger and their keys, the resources of contract calls, and
operations. Each proof repeats the schema of its type.

* `Thresholds.lossless` — the one type with JSON that does not follow its wire form.
* `LedgerEntry.lossless`, `LedgerKey.lossless`, `Operation.lossless`, … — one theorem a type.
-/

import LedgerWire.Proofs.Types.Lossless

namespace LedgerWire

open Schema

/-! ### Network settings -/

namespace ConfigSetting

theorem Id.lossless : Id.schema.Lossless := Enumeration.lossless fun i => by cases i <;> rfl

theorem Compute.lossless : Compute.schema.Lossless :=
  .record rfl rfl (by simp) <| .cons lossless_i64 <| .cons lossless_i64 <|
    .cons lossless_i64 <| .last lossless_u32

theorem LedgerCost.lossless : LedgerCost.schema.Lossless :=
  .record rfl rfl (by simp) <| .cons lossless_u32 <| .cons lossless_u32 <|
    .cons lossless_u32 <| .cons lossless_u32 <| .cons lossless_u32 <| .cons lossless_u32 <|
    .cons lossless_u32 <| .cons lossless_u32 <| .cons lossless_i64 <| .cons lossless_i64 <|
    .cons lossless_i64 <| .cons lossless_i64 <| .cons lossless_i64 <| .cons lossless_i64 <|
    .last lossless_u32

theorem StateArchival.lossless : StateArchival.schema.Lossless :=
  .record rfl rfl (by simp) <| .cons lossless_u32 <| .cons lossless_u32 <|
    .cons lossless_u32 <| .cons lossless_i64 <| .cons lossless_i64 <| .cons lossless_u32 <|
    .cons lossless_u32 <| .cons lossless_u32 <| .cons lossless_u32 <| .last lossless_u32

theorem ScpTiming.lossless : ScpTiming.schema.Lossless :=
  .record rfl rfl (by simp) <| .cons lossless_u32 <| .cons lossless_u32 <|
    .cons lossless_u32 <| .cons lossless_u32 <| .last lossless_u32

theorem lossless_costs : costs.Lossless := by
  have hparameter : CostParameter.schema.Lossless :=
    .record rfl rfl (by simp) <| .cons lossless_reserved <| .cons lossless_i64 <|
      .last lossless_i64
  exact hparameter.array

theorem lossless : ConfigSetting.schema.Lossless := by
  have hhistorical : HistoricalData.schema.Lossless :=
    .record rfl rfl (by simp) <| .last lossless_i64
  have hevents : Events.schema.Lossless :=
    .record rfl rfl (by simp) <| .cons lossless_u32 <| .last lossless_i64
  have hbandwidth : Bandwidth.schema.Lossless :=
    .record rfl rfl (by simp) <| .cons lossless_u32 <| .cons lossless_u32 <| .last lossless_i64
  have hlanes : ExecutionLanes.schema.Lossless :=
    .record rfl rfl (by simp) <| .last lossless_u32
  have hiterator : EvictionIterator.schema.Lossless :=
    .record rfl rfl (by simp) <| .cons lossless_u32 <| .cons lossless_bool <| .last lossless_u64
  have hparallel : ParallelCompute.schema.Lossless :=
    .record rfl rfl (by simp) <| .last lossless_u32
  have hextension : LedgerCostExtension.schema.Lossless :=
    .record rfl rfl (by simp) <| .cons lossless_u32 <| .last lossless_i64
  exact .union (fun a => by cases a <;> rfl) (by simp) <|
    .of rfl lossless_u32 <| .of rfl Compute.lossless <| .of rfl LedgerCost.lossless <|
    .of rfl hhistorical <| .of rfl hevents <| .of rfl hbandwidth <| .of rfl lossless_costs <|
    .of rfl lossless_costs <| .of rfl lossless_u32 <| .of rfl lossless_u32 <|
    .of rfl StateArchival.lossless <| .of rfl hlanes <| .of rfl lossless_u64.array <|
    .of rfl hiterator <| .of rfl hparallel <| .of rfl hextension <| .of rfl ScpTiming.lossless .nil

end ConfigSetting

/-! ### Accounts -/

theorem Liabilities.lossless : Liabilities.schema.Lossless :=
  .record rfl rfl (by simp) <| .cons Amount.lossless <| .last Amount.lossless

/-- Four bytes on the wire are four numbers in JSON. -/
theorem Thresholds.lossless : Thresholds.schema.Lossless := by
  intro t _
  have hbyte (name : String) (n : UInt8) :
      (Json.Members.member name Json.Form.u8).Restores [name] n :=
    .member (Json.Form.restores_u8 n)
  have hupper := (hbyte "medium" t.medium).both (hbyte "high" t.high) (by decide)
  have hlower := (hbyte "low" t.low).both hupper (by decide)
  exact Json.Members.Restores.object rfl <|
    (hbyte "master_weight" t.masterWeight).both hlower (by decide)

theorem AccountEntryExtensionV3.lossless : AccountEntryExtensionV3.schema.Lossless :=
  .record rfl rfl (by simp) <| .cons lossless_reserved <| .cons lossless_u32 <|
    .last lossless_u64

theorem AccountEntryExtensionV2.lossless : AccountEntryExtensionV2.schema.Lossless := by
  have hsponsor : (Schema.optional AccountId.schema).Lossless :=
    .optional (fun _ => by nofun) AccountId.lossless
  exact .record rfl rfl (by simp) <| .cons lossless_u32 <| .cons lossless_u32 <|
    .cons hsponsor.array <| .last (.extension (fun _ => by nofun) AccountEntryExtensionV3.lossless)

theorem AccountEntryExtensionV1.lossless : AccountEntryExtensionV1.schema.Lossless :=
  .record rfl rfl (by simp) <| .cons Liabilities.lossless <|
    .last (.extension (fun _ => by nofun) AccountEntryExtensionV2.lossless)

theorem AccountEntry.lossless : AccountEntry.schema.Lossless :=
  .guarded <| .record rfl rfl (by simp) <| .cons AccountId.lossless <| .cons Amount.lossless <|
    .cons lossless_i64 <| .cons lossless_u32 <|
    .cons (.optional (fun _ => by nofun) AccountId.lossless) <| .cons lossless_u32 <|
    .cons (lossless_text _ _ _) <| .cons Thresholds.lossless <| .cons Signer.lossless.array <|
    .last (.extension (fun _ => by nofun) AccountEntryExtensionV1.lossless)

/-! ### Trust lines, offers, balances and pools -/

theorem TrustLineEntryV1.lossless : TrustLineEntryV1.schema.Lossless := by
  have hextension : TrustLineEntryExtensionV2.schema.Lossless :=
    .record rfl rfl (by simp) <| .cons lossless_i32 <| .last lossless_reserved
  exact .record rfl rfl (by simp) <| .cons Liabilities.lossless <|
    .last (.extension (fun _ => by nofun) hextension)

theorem TrustLineEntry.lossless : TrustLineEntry.schema.Lossless :=
  .record rfl rfl (by simp) <| .cons AccountId.lossless <| .cons TrustLineAsset.lossless <|
    .cons Amount.lossless <| .cons Amount.lossless <| .cons lossless_u32 <|
    .last (.extension (fun _ => by nofun) TrustLineEntryV1.lossless)

theorem OfferEntry.lossless : OfferEntry.schema.Lossless :=
  .record rfl rfl (by simp) <| .cons AccountId.lossless <| .cons lossless_i64 <|
    .cons Asset.lossless <| .cons Asset.lossless <| .cons Amount.lossless <|
    .cons Price.lossless <| .cons lossless_u32 <| .last lossless_reserved

theorem ClaimableBalanceEntry.lossless : ClaimableBalanceEntry.schema.Lossless := by
  have hextension : ClaimableBalanceEntryExtensionV1.schema.Lossless :=
    .record rfl rfl (by simp) <| .cons lossless_reserved <| .last lossless_u32
  exact .guarded <| .record rfl rfl (by simp) <| .cons ClaimableBalanceId.lossless <|
    .cons Claimant.lossless.array <| .cons Asset.lossless <| .cons Amount.lossless <|
    .last (.extension (fun _ => by nofun) hextension)

theorem LiquidityPoolEntry.lossless : LiquidityPoolEntry.schema.Lossless :=
  .record rfl rfl (by simp) <| .cons PoolId.lossless <|
    .cons LiquidityPoolParameters.lossless <| .cons Amount.lossless <| .cons Amount.lossless <|
    .cons Amount.lossless <| .last lossless_i64

/-! ### Data, contracts and lifetimes -/

theorem DataEntry.lossless : DataEntry.schema.Lossless :=
  .guarded <| .record rfl rfl (by simp) <| .cons AccountId.lossless <|
    .cons (lossless_text _ _ _) <| .cons (lossless_bytes _ _ _) <| .last lossless_reserved

theorem ContractDataDurability.lossless : ContractDataDurability.schema.Lossless :=
  Enumeration.lossless fun d => by cases d <;> rfl

theorem ContractDataEntry.lossless : ContractDataEntry.schema.Lossless :=
  .record rfl rfl (by simp) <| .cons lossless_reserved <| .cons ScAddress.lossless <|
    .cons ScVal.lossless <| .cons ContractDataDurability.lossless <| .last ScVal.lossless

theorem ContractCodeEntry.lossless : ContractCodeEntry.schema.Lossless := by
  have hcosts : ContractCodeCostInputs.schema.Lossless :=
    .record rfl rfl (by simp) <| .cons lossless_reserved <| .cons lossless_u32 <|
      .cons lossless_u32 <| .cons lossless_u32 <| .cons lossless_u32 <| .cons lossless_u32 <|
      .cons lossless_u32 <| .cons lossless_u32 <| .cons lossless_u32 <| .cons lossless_u32 <|
      .last lossless_u32
  have hextension : ContractCodeEntryV1.schema.Lossless :=
    .record rfl rfl (by simp) <| .cons lossless_reserved <| .last hcosts
  exact .record rfl rfl (by simp) <| .cons (.extension (fun _ => by nofun) hextension) <|
    .cons Hash.lossless <| .last (lossless_bytes _ _ _)

theorem TtlEntry.lossless : TtlEntry.schema.Lossless :=
  .record rfl rfl (by simp) <| .cons Hash.lossless <| .last lossless_u32

/-! ### Entries and keys -/

theorem LedgerEntryData.lossless : LedgerEntryData.schema.Lossless :=
  .union (fun a => by cases a <;> rfl) (by simp) <|
    .of rfl AccountEntry.lossless <| .of rfl TrustLineEntry.lossless <|
    .of rfl OfferEntry.lossless <| .of rfl DataEntry.lossless <|
    .of rfl ClaimableBalanceEntry.lossless <| .of rfl LiquidityPoolEntry.lossless <|
    .of rfl ContractDataEntry.lossless <| .of rfl ContractCodeEntry.lossless <|
    .of rfl ConfigSetting.lossless <| .of rfl TtlEntry.lossless .nil

theorem LedgerEntry.lossless : LedgerEntry.schema.Lossless := by
  have hextension : LedgerEntryExtensionV1.schema.Lossless :=
    .record rfl rfl (by simp) <| .cons (.optional (fun _ => by nofun) AccountId.lossless) <|
      .last lossless_reserved
  exact .record rfl rfl (by simp) <| .cons lossless_u32 <| .cons LedgerEntryData.lossless <|
    .last (.extension (fun _ => by nofun) hextension)

theorem LedgerKey.lossless : LedgerKey.schema.Lossless :=
  .union (fun a => by cases a <;> rfl) (by simp) <|
    .of rfl (.inArm (by simp) <| .last AccountId.lossless) <|
    .of rfl (.inArm (by simp) <| .cons AccountId.lossless <| .last TrustLineAsset.lossless) <|
    .of rfl (.inArm (by simp) <| .cons AccountId.lossless <| .last lossless_i64) <|
    .of rfl (.guarded <| .inArm (by simp) <| .cons AccountId.lossless <|
      .last (lossless_text _ _ _)) <|
    .of rfl (.inArm (by simp) <| .last ClaimableBalanceId.lossless) <|
    .of rfl (.inArm (by simp) <| .last PoolId.lossless) <|
    .of rfl (.inArm (by simp) <| .cons ScAddress.lossless <| .cons ScVal.lossless <|
      .last ContractDataDurability.lossless) <|
    .of rfl (.inArm (by simp) <| .last Hash.lossless) <|
    .of rfl (.inArm (by simp) <| .last ConfigSetting.Id.lossless) <|
    .of rfl (.inArm (by simp) <| .last Hash.lossless) .nil

theorem SorobanTransactionData.lossless : SorobanTransactionData.schema.Lossless := by
  have hfootprint : LedgerFootprint.schema.Lossless :=
    .record rfl rfl (by simp) <| .cons LedgerKey.lossless.array <| .last LedgerKey.lossless.array
  have hresources : SorobanResources.schema.Lossless :=
    .record rfl rfl (by simp) <| .cons hfootprint <| .cons lossless_u32 <|
      .cons lossless_u32 <| .last lossless_u32
  have hextension : SorobanResourcesExtV0.schema.Lossless :=
    .record rfl rfl (by simp) <| .last lossless_u32.array
  exact .record rfl rfl (by simp) <| .cons (.extension (fun _ => by nofun) hextension) <|
    .cons hresources <| .last Amount.lossless

/-! ### Operations -/

theorem CreateAccountOp.lossless : CreateAccountOp.schema.Lossless :=
  .guarded <| .record rfl rfl (by simp) <| .cons AccountId.lossless <| .last Amount.lossless

theorem PaymentOp.lossless : PaymentOp.schema.Lossless :=
  .guarded <| .record rfl rfl (by simp) <| .cons MuxedAccount.lossless <|
    .cons Asset.lossless <| .last Amount.lossless

theorem PathPaymentStrictReceiveOp.lossless : PathPaymentStrictReceiveOp.schema.Lossless :=
  .guarded <| .record rfl rfl (by simp) <| .cons Asset.lossless <| .cons Amount.lossless <|
    .cons MuxedAccount.lossless <| .cons Asset.lossless <| .cons Amount.lossless <|
    .last Asset.lossless.array

theorem PathPaymentStrictSendOp.lossless : PathPaymentStrictSendOp.schema.Lossless :=
  .guarded <| .record rfl rfl (by simp) <| .cons Asset.lossless <| .cons Amount.lossless <|
    .cons MuxedAccount.lossless <| .cons Asset.lossless <| .cons Amount.lossless <|
    .last Asset.lossless.array

theorem ManageSellOfferOp.lossless : ManageSellOfferOp.schema.Lossless :=
  .guarded <| .record rfl rfl (by simp) <| .cons Asset.lossless <| .cons Asset.lossless <|
    .cons Amount.lossless <| .cons Price.lossless <| .last lossless_i64

theorem ManageBuyOfferOp.lossless : ManageBuyOfferOp.schema.Lossless :=
  .guarded <| .record rfl rfl (by simp) <| .cons Asset.lossless <| .cons Asset.lossless <|
    .cons Amount.lossless <| .cons Price.lossless <| .last lossless_i64

theorem CreatePassiveSellOfferOp.lossless : CreatePassiveSellOfferOp.schema.Lossless :=
  .guarded <| .record rfl rfl (by simp) <| .cons Asset.lossless <| .cons Asset.lossless <|
    .cons Amount.lossless <| .last Price.lossless

theorem SetOptionsOp.lossless : SetOptionsOp.schema.Lossless := by
  have hword : (Schema.optional .u32).Lossless := .optional (fun _ => by nofun) lossless_u32
  have hdomain : (Schema.optional homeDomainSchema).Lossless :=
    .optional (fun _ => by nofun) (lossless_text _ _ _)
  exact .guarded <| .record rfl rfl (by simp) <|
    .cons (.optional (fun _ => by nofun) AccountId.lossless) <| .cons hword <| .cons hword <|
    .cons hword <| .cons hword <| .cons hword <| .cons hword <| .cons hdomain <|
    .last (.optional (fun _ => by nofun) Signer.lossless)

theorem ChangeTrustOp.lossless : ChangeTrustOp.schema.Lossless :=
  .guarded <| .record rfl rfl (by simp) <| .cons ChangeTrustAsset.lossless <|
    .last Amount.lossless

/-- A value that is not given is left out of the document. -/
theorem ManageDataOp.lossless : ManageDataOp.schema.Lossless :=
  .guarded <| .record rfl rfl (by simp) <| .cons (lossless_text _ _ _) <|
    .lastOmitted (fun _ => by nofun) (lossless_bytes _ _ _)

theorem BumpSequenceOp.lossless : BumpSequenceOp.schema.Lossless :=
  .guarded <| .record rfl rfl (by simp) <| .last lossless_i64

theorem CreateClaimableBalanceOp.lossless : CreateClaimableBalanceOp.schema.Lossless :=
  .guarded <| .record rfl rfl (by simp) <| .cons Asset.lossless <| .cons Amount.lossless <|
    .last Claimant.lossless.array

theorem ClaimClaimableBalanceOp.lossless : ClaimClaimableBalanceOp.schema.Lossless :=
  .record rfl rfl (by simp) <| .last ClaimableBalanceId.lossless

theorem ClawbackClaimableBalanceOp.lossless : ClawbackClaimableBalanceOp.schema.Lossless :=
  .record rfl rfl (by simp) <| .last ClaimableBalanceId.lossless

theorem BeginSponsoringFutureReservesOp.lossless :
    BeginSponsoringFutureReservesOp.schema.Lossless :=
  .record rfl rfl (by simp) <| .last AccountId.lossless

theorem RevokeSponsorshipOp.lossless : RevokeSponsorshipOp.schema.Lossless :=
  .guarded <| .union (fun a => by cases a <;> rfl) (by simp) <|
    .of rfl LedgerKey.lossless <|
    .of rfl (.inArm (by simp) <| .cons AccountId.lossless <| .last SignerKey.lossless) .nil

theorem ClawbackOp.lossless : ClawbackOp.schema.Lossless :=
  .guarded <| .record rfl rfl (by simp) <| .cons Asset.lossless <|
    .cons MuxedAccount.lossless <| .last Amount.lossless

theorem SetTrustLineFlagsOp.lossless : SetTrustLineFlagsOp.schema.Lossless :=
  .guarded <| .record rfl rfl (by simp) <| .cons AccountId.lossless <| .cons Asset.lossless <|
    .cons lossless_u32 <| .last lossless_u32

theorem LiquidityPoolDepositOp.lossless : LiquidityPoolDepositOp.schema.Lossless :=
  .guarded <| .record rfl rfl (by simp) <| .cons PoolId.lossless <| .cons Amount.lossless <|
    .cons Amount.lossless <| .cons Price.lossless <| .last Price.lossless

theorem LiquidityPoolWithdrawOp.lossless : LiquidityPoolWithdrawOp.schema.Lossless :=
  .guarded <| .record rfl rfl (by simp) <| .cons PoolId.lossless <| .cons Amount.lossless <|
    .cons Amount.lossless <| .last Amount.lossless

theorem InvokeHostFunctionOp.lossless : InvokeHostFunctionOp.schema.Lossless :=
  .record rfl rfl (by simp) <| .cons HostFunction.lossless <|
    .last SorobanAuthorizationEntry.lossless.array

theorem ExtendFootprintTtlOp.lossless : ExtendFootprintTtlOp.schema.Lossless :=
  .guarded <| .record rfl rfl (by simp) <| .cons lossless_reserved <| .last lossless_u32

theorem RestoreFootprintOp.lossless : RestoreFootprintOp.schema.Lossless :=
  .record rfl rfl (by simp) <| .last lossless_reserved

theorem OperationBody.lossless : OperationBody.schema.Lossless :=
  .union (fun a => by cases a <;> rfl) (by simp) <|
    .of rfl CreateAccountOp.lossless <| .of rfl PaymentOp.lossless <|
    .of rfl PathPaymentStrictReceiveOp.lossless <| .of rfl ManageSellOfferOp.lossless <|
    .of rfl CreatePassiveSellOfferOp.lossless <| .of rfl SetOptionsOp.lossless <|
    .of rfl ChangeTrustOp.lossless <| .retired <| .of rfl MuxedAccount.lossless <| .retired <|
    .of rfl ManageDataOp.lossless <| .of rfl BumpSequenceOp.lossless <|
    .of rfl ManageBuyOfferOp.lossless <| .of rfl PathPaymentStrictSendOp.lossless <|
    .of rfl CreateClaimableBalanceOp.lossless <| .of rfl ClaimClaimableBalanceOp.lossless <|
    .of rfl BeginSponsoringFutureReservesOp.lossless <| .bare rfl <|
    .of rfl RevokeSponsorshipOp.lossless <| .of rfl ClawbackOp.lossless <|
    .of rfl ClawbackClaimableBalanceOp.lossless <| .of rfl SetTrustLineFlagsOp.lossless <|
    .of rfl LiquidityPoolDepositOp.lossless <| .of rfl LiquidityPoolWithdrawOp.lossless <|
    .of rfl InvokeHostFunctionOp.lossless <| .of rfl ExtendFootprintTtlOp.lossless <|
    .of rfl RestoreFootprintOp.lossless .nil

theorem Operation.lossless : Operation.schema.Lossless :=
  .record rfl rfl (by simp) <| .cons (.optional (fun _ => by nofun) MuxedAccount.lossless) <|
    .last OperationBody.lossless

end LedgerWire
