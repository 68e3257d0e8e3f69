/-
# The catalogue obeys the rules

Each type of the catalogue has a regular wire form. What the rules give for one codec therefore
holds of all types, and is stated here once for the whole catalogue.

* `wireTypes` — all types with a wire form: the catalogue, and the slot for a signer's sponsor.
* `measuredTypes` — the same types, each with the nesting of its values.
* `regular_of_mem_wireTypes` — each of them obeys the rules at every depth.
* `wire_form_canonical` — a value has one byte string and one text that are read as it.
* `wire_form_self_delimiting` — a value's bytes say themselves where they end.
-/

import LedgerWire.Catalogue
import LedgerWire.Proofs.Types.Operations
import LedgerWire.Proofs.Types.Settings
import LedgerWire.Proofs.Wire.Whole

namespace LedgerWire

/-- The slot that an account keeps for the sponsor of one of its signers. It is written and read
as the elements of a list, and has no projection of its own. -/
def sponsorSlot : DataType :=
  ⟨"SponsorshipDescriptor", Option AccountId, .optional AccountId.schema⟩

/-- All types with a wire form. -/
def wireTypes : List DataType := sponsorSlot :: catalogue

/-- The wire form of the type obeys the rules at every depth. -/
def DataType.IsRegular (t : DataType) : Prop :=
  ∃ nesting, ∀ k, Codec.Regular k t.schema.wire nesting

/-! ### Measured types -/

/-- A type with the measure of its values that its reading counts: how deep they are nested. -/
structure MeasuredType : Type 1 where
  type : DataType
  nesting : type.Value → Nat
  regular : ∀ k, Codec.Regular k type.schema.wire nesting

namespace MeasuredType

variable {α : Type} [DecidableEq α]

def of (name : String) (s : Schema α) (f : α → Nat) (h : ∀ k, Codec.Regular k s.wire f) :
    MeasuredType := ⟨⟨name, α, s⟩, f, h⟩

def flat (name : String) (s : Schema α) (h : s.wire.Flat) : MeasuredType :=
  of name s (fun _ => 0) h

end MeasuredType

namespace Catalogue

def measuredWords : List MeasuredType :=
  [ .flat "u32" .u32 Codec.flat_u32, .flat "i32" .i32 Codec.flat_i32,
    .flat "u64" .u64 Codec.flat_u64, .flat "i64" .i64 Codec.flat_i64,
    .flat "bool" .bool Codec.flat_bool, .flat "ExtensionPoint" .reserved Schema.flat_reserved ]

def measuredNames : List MeasuredType :=
  [ .flat "Amount" Amount.schema Amount.flat, .flat "Price" Price.schema Price.flat,
    .flat "Hash" Hash.schema Hash.flat, .flat "AccountId" AccountId.schema AccountId.flat,
    .flat "MuxedAccount" MuxedAccount.schema MuxedAccount.flat,
    .flat "ContractId" ContractId.schema ContractId.flat,
    .flat "ScAddress" ScAddress.schema ScAddress.flat,
    .flat "SignerKey" SignerKey.schema SignerKey.flat, .flat "Signer" Signer.schema Signer.flat ]

def measuredAssets : List MeasuredType :=
  [ .flat "AlphaNum4" (Credit.schema .four) (Credit.flat .four),
    .flat "AlphaNum12" (Credit.schema .twelve) (Credit.flat .twelve),
    .flat "Asset" Asset.schema Asset.flat, .flat "PoolId" PoolId.schema PoolId.flat,
    .flat "LiquidityPoolParameters" LiquidityPoolParameters.schema LiquidityPoolParameters.flat,
    .flat "ChangeTrustAsset" ChangeTrustAsset.schema ChangeTrustAsset.flat,
    .flat "TrustLineAsset" TrustLineAsset.schema TrustLineAsset.flat,
    .of "ClaimPredicate" ClaimPredicate.schema ClaimPredicate.nesting ClaimPredicate.regular,
    .of "Claimant" Claimant.schema Claimant.nesting Claimant.regular,
    .flat "ClaimableBalanceId" ClaimableBalanceId.schema ClaimableBalanceId.flat ]

def measuredSettings : List MeasuredType :=
  [ .flat "ConfigSettingId" ConfigSetting.Id.schema ConfigSetting.Id.flat,
    .flat "ConfigSettingContractComputeV0" ConfigSetting.Compute.schema ConfigSetting.Compute.flat,
    .flat "ConfigSettingContractLedgerCostV0" ConfigSetting.LedgerCost.schema
      ConfigSetting.LedgerCost.flat,
    .flat "ConfigSettingContractHistoricalDataV0" ConfigSetting.HistoricalData.schema
      ConfigSetting.HistoricalData.flat,
    .flat "ConfigSettingContractEventsV0" ConfigSetting.Events.schema ConfigSetting.Events.flat,
    .flat "ConfigSettingContractBandwidthV0" ConfigSetting.Bandwidth.schema
      ConfigSetting.Bandwidth.flat,
    .flat "StateArchivalSettings" ConfigSetting.StateArchival.schema
      ConfigSetting.StateArchival.flat,
    .flat "ConfigSettingContractExecutionLanesV0" ConfigSetting.ExecutionLanes.schema
      ConfigSetting.ExecutionLanes.flat,
    .flat "EvictionIterator" ConfigSetting.EvictionIterator.schema
      ConfigSetting.EvictionIterator.flat,
    .flat "ConfigSettingContractParallelComputeV0" ConfigSetting.ParallelCompute.schema
      ConfigSetting.ParallelCompute.flat,
    .flat "ConfigSettingContractLedgerCostExtV0" ConfigSetting.LedgerCostExtension.schema
      ConfigSetting.LedgerCostExtension.flat,
    .flat "ConfigSettingScpTiming" ConfigSetting.ScpTiming.schema ConfigSetting.ScpTiming.flat,
    .flat "ContractCostParamEntry" ConfigSetting.CostParameter.schema
      ConfigSetting.CostParameter.flat,
    .flat "ConfigSettingEntry" ConfigSetting.schema ConfigSetting.flat ]

def measuredEntries : List MeasuredType :=
  [ .flat "LedgerEntryType" LedgerEntryType.schema LedgerEntryType.flat,
    .flat "ContractDataDurability" ContractDataDurability.schema ContractDataDurability.flat,
    .of "LedgerKey" LedgerKey.schema LedgerKey.nesting LedgerKey.regular,
    .flat "Liabilities" Liabilities.schema Liabilities.flat,
    .flat "Thresholds" Thresholds.schema Thresholds.flat,
    .flat "AccountEntry" AccountEntry.schema AccountEntry.flat,
    .flat "AccountEntryExtensionV1" AccountEntryExtensionV1.schema AccountEntryExtensionV1.flat,
    .flat "AccountEntryExtensionV2" AccountEntryExtensionV2.schema AccountEntryExtensionV2.flat,
    .flat "AccountEntryExtensionV3" AccountEntryExtensionV3.schema AccountEntryExtensionV3.flat,
    .flat "TrustLineEntry" TrustLineEntry.schema TrustLineEntry.flat,
    .flat "TrustLineEntryV1" TrustLineEntryV1.schema TrustLineEntryV1.flat,
    .flat "TrustLineEntryExtensionV2" TrustLineEntryExtensionV2.schema
      TrustLineEntryExtensionV2.flat,
    .flat "OfferEntry" OfferEntry.schema OfferEntry.flat,
    .flat "DataEntry" DataEntry.schema DataEntry.flat,
    .of "ClaimableBalanceEntry" ClaimableBalanceEntry.schema ClaimableBalanceEntry.nesting
      ClaimableBalanceEntry.regular,
    .flat "ClaimableBalanceEntryExtensionV1" ClaimableBalanceEntryExtensionV1.schema
      ClaimableBalanceEntryExtensionV1.flat,
    .flat "LiquidityPoolEntry" LiquidityPoolEntry.schema LiquidityPoolEntry.flat,
    .of "ContractDataEntry" ContractDataEntry.schema ContractDataEntry.nesting
      ContractDataEntry.regular,
    .flat "ContractCodeCostInputs" ContractCodeCostInputs.schema ContractCodeCostInputs.flat,
    .flat "ContractCodeEntryV1" ContractCodeEntryV1.schema ContractCodeEntryV1.flat,
    .flat "ContractCodeEntry" ContractCodeEntry.schema ContractCodeEntry.flat,
    .flat "TtlEntry" TtlEntry.schema TtlEntry.flat,
    .of "LedgerEntryData" LedgerEntryData.schema LedgerEntryData.nesting LedgerEntryData.regular,
    .flat "LedgerEntryExtensionV1" LedgerEntryExtensionV1.schema LedgerEntryExtensionV1.flat,
    .of "LedgerEntry" LedgerEntry.schema LedgerEntry.nesting LedgerEntry.regular ]

def measuredContracts : List MeasuredType :=
  [ .flat "ScErrorType" ScErrorType.schema ScErrorType.flat,
    .flat "ScErrorCode" ScErrorCode.schema ScErrorCode.flat,
    .flat "ScError" ScError.schema ScError.flat,
    .flat "Int128Parts" Int128Parts.schema Int128Parts.flat,
    .flat "UInt128Parts" UInt128Parts.schema UInt128Parts.flat,
    .flat "Int256Parts" Int256Parts.schema Int256Parts.flat,
    .flat "UInt256Parts" UInt256Parts.schema UInt256Parts.flat,
    .flat "ContractExecutable" ContractExecutable.schema ContractExecutable.flat,
    .of "ScMapEntry" ScMapEntry.schema ScVal.nestingEntry ScMapEntry.regular,
    .of "ScContractInstance" ScContractInstance.schema ScVal.nestingInstance
      ScContractInstance.regular,
    .of "ScVal" ScVal.schema ScVal.nesting ScVal.regular,
    .flat "ContractIdAddressPreimage" ContractIdAddressPreimage.schema
      ContractIdAddressPreimage.flat,
    .flat "ContractIdPreimage" ContractIdPreimage.schema ContractIdPreimage.flat,
    .of "InvokeContractArgs" InvokeContractArgs.schema InvokeContractArgs.nesting
      InvokeContractArgs.regular,
    .flat "CreateContractArgs" CreateContractArgs.schema CreateContractArgs.flat,
    .of "CreateContractArgsV2" CreateContractArgsV2.schema CreateContractArgsV2.nesting
      CreateContractArgsV2.regular,
    .of "HostFunction" HostFunction.schema HostFunction.nesting HostFunction.regular,
    .of "SorobanAuthorizedFunction" SorobanAuthorizedFunction.schema
      SorobanAuthorizedFunction.nesting SorobanAuthorizedFunction.regular,
    .of "SorobanAuthorizedInvocation" SorobanAuthorizedInvocation.schema
      SorobanAuthorizedInvocation.nesting SorobanAuthorizedInvocation.regular,
    .of "SorobanAddressCredentials" SorobanAddressCredentials.schema
      SorobanAddressCredentials.nesting SorobanAddressCredentials.regular,
    .of "SorobanCredentials" SorobanCredentials.schema SorobanCredentials.nesting
      SorobanCredentials.regular,
    .of "SorobanAuthorizationEntry" SorobanAuthorizationEntry.schema
      SorobanAuthorizationEntry.nesting SorobanAuthorizationEntry.regular,
    .of "LedgerFootprint" LedgerFootprint.schema LedgerFootprint.nesting LedgerFootprint.regular,
    .of "SorobanResources" SorobanResources.schema SorobanResources.nesting
      SorobanResources.regular,
    .flat "SorobanResourcesExtV0" SorobanResourcesExtV0.schema SorobanResourcesExtV0.flat,
    .of "SorobanTransactionData" SorobanTransactionData.schema SorobanTransactionData.nesting
      SorobanTransactionData.regular ]

def measuredOperations : List MeasuredType :=
  [ .flat "OperationType" OperationType.schema OperationType.flat,
    .flat "CreateAccountOp" CreateAccountOp.schema CreateAccountOp.flat,
    .flat "BumpSequenceOp" BumpSequenceOp.schema BumpSequenceOp.flat,
    .flat "BeginSponsoringFutureReservesOp" BeginSponsoringFutureReservesOp.schema
      BeginSponsoringFutureReservesOp.flat,
    .of "RevokeSponsorshipOp" RevokeSponsorshipOp.schema RevokeSponsorshipOp.nesting
      RevokeSponsorshipOp.regular,
    .flat "SetOptionsOp" SetOptionsOp.schema SetOptionsOp.flat,
    .flat "ManageDataOp" ManageDataOp.schema ManageDataOp.flat,
    .flat "PaymentOp" PaymentOp.schema PaymentOp.flat,
    .flat "PathPaymentStrictReceiveOp" PathPaymentStrictReceiveOp.schema
      PathPaymentStrictReceiveOp.flat,
    .flat "PathPaymentStrictSendOp" PathPaymentStrictSendOp.schema PathPaymentStrictSendOp.flat,
    .flat "ManageSellOfferOp" ManageSellOfferOp.schema ManageSellOfferOp.flat,
    .flat "ManageBuyOfferOp" ManageBuyOfferOp.schema ManageBuyOfferOp.flat,
    .flat "CreatePassiveSellOfferOp" CreatePassiveSellOfferOp.schema CreatePassiveSellOfferOp.flat,
    .flat "LiquidityPoolDepositOp" LiquidityPoolDepositOp.schema LiquidityPoolDepositOp.flat,
    .flat "LiquidityPoolWithdrawOp" LiquidityPoolWithdrawOp.schema LiquidityPoolWithdrawOp.flat,
    .of "InvokeHostFunctionOp" InvokeHostFunctionOp.schema InvokeHostFunctionOp.nesting
      InvokeHostFunctionOp.regular,
    .flat "ExtendFootprintTtlOp" ExtendFootprintTtlOp.schema ExtendFootprintTtlOp.flat,
    .flat "RestoreFootprintOp" RestoreFootprintOp.schema RestoreFootprintOp.flat,
    .of "CreateClaimableBalanceOp" CreateClaimableBalanceOp.schema CreateClaimableBalanceOp.nesting
      CreateClaimableBalanceOp.regular,
    .flat "ClaimClaimableBalanceOp" ClaimClaimableBalanceOp.schema ClaimClaimableBalanceOp.flat,
    .flat "ClawbackClaimableBalanceOp" ClawbackClaimableBalanceOp.schema
      ClawbackClaimableBalanceOp.flat,
    .flat "ChangeTrustOp" ChangeTrustOp.schema ChangeTrustOp.flat,
    .flat "SetTrustLineFlagsOp" SetTrustLineFlagsOp.schema SetTrustLineFlagsOp.flat,
    .flat "ClawbackOp" ClawbackOp.schema ClawbackOp.flat,
    .of "OperationBody" OperationBody.schema OperationBody.nesting OperationBody.regular,
    .of "Operation" Operation.schema Operation.nesting Operation.regular ]

end Catalogue

/-- All types with a wire form, measured. -/
def measuredTypes : List MeasuredType :=
  .flat "SponsorshipDescriptor" (.optional AccountId.schema) AccountId.flat.optional
    :: (Catalogue.measuredWords ++ Catalogue.measuredNames ++ Catalogue.measuredAssets
      ++ Catalogue.measuredSettings ++ Catalogue.measuredEntries ++ Catalogue.measuredContracts
      ++ Catalogue.measuredOperations)

/-- No type is left out. -/
theorem map_type_measuredTypes : measuredTypes.map (·.type) = wireTypes := rfl

/-- **Every type with a wire form obeys the rules.** -/
theorem regular_of_mem_wireTypes {t : DataType} (ht : t ∈ wireTypes) : t.IsRegular := by
  rw [← map_type_measuredTypes] at ht
  obtain ⟨x, -, rfl⟩ := List.mem_map.1 ht
  exact ⟨x.nesting, x.regular⟩

/-! ### What holds of every type -/

section EveryType

variable {t : DataType}

/-- **The wire form is canonical.** No two byte strings are read as one value. A value that was read
is written as the same bytes again, or not at all, since reading does not judge the rules that
writing does. Blanks around it aside, the same holds of the text in base 64. -/
theorem wire_form_canonical (ht : t ∈ wireTypes) :
    (∀ v b₁ b₂, t.decode b₁ = .ok v → t.decode b₂ = .ok v → b₁ = b₂)
      ∧ (∀ v b, t.decode b = .ok v → (∀ b', t.encode v = .ok b' → b' = b)
        ∧ ∀ e, t.encode v = .error e → e.IsValidation)
      ∧ (∀ v s₁ s₂, t.ofBase64 s₁ = .ok v → t.ofBase64 s₂ = .ok v → Text.trim s₁ = Text.trim s₂)
      ∧ ∀ v s, t.ofBase64 s = .ok v → (∀ s', t.toBase64 v = .ok s' → Text.trim s = s')
        ∧ ∀ e, t.toBase64 v = .error e → e.IsValidation := by
  obtain ⟨nesting, hregular⟩ := regular_of_mem_wireTypes ht
  have h := hregular Reader.defaultLimit
  have hk := Nat.le_refl Reader.defaultLimit
  refine ⟨fun v b₁ b₂ h₁ h₂ => h.decode_injective hk h₁ h₂, fun v b hb => ⟨fun b' hb' => ?_, ?_⟩,
    fun v s₁ s₂ h₁ h₂ => ?_, fun v s hs => ?_⟩
  · exact h.encode_of_decode hk hb hb'
  · exact fun e he => h.isValidation_of_decode hk hb he
  · obtain ⟨b₁, htext₁, hb₁⟩ := Codec.ofBase64_eq_ok_iff.1 h₁
    obtain ⟨b₂, htext₂, hb₂⟩ := Codec.ofBase64_eq_ok_iff.1 h₂
    rw [htext₁, htext₂, h.decode_injective hk hb₁ hb₂]
  · obtain ⟨b, htext, hb⟩ := Codec.ofBase64_eq_ok_iff.1 hs
    refine ⟨fun s' hs' => ?_, fun e he => ?_⟩
    · obtain ⟨b', hb', rfl⟩ := Codec.toBase64_eq_ok_iff.1 hs'
      rw [htext, h.encode_of_decode hk hb hb']
    · exact h.isValidation_of_decode hk hb (Codec.toBase64_eq_error_iff.1 he)

/-- A sequence number is read again from what it was written as; a negative one is read, but breaks
a rule. -/
theorem wire_form_canonical_bumpSequence :
    BumpSequenceOp.schema.wire.decode [0, 0, 0, 0, 0, 0, 0, 5] = .ok ⟨5⟩
      ∧ BumpSequenceOp.schema.wire.decode (List.replicate 8 255) = .ok ⟨-1⟩
      ∧ (WireError.validation "bump_to" (.negative (-1))).IsValidation
      ∧ Text.trim " AAAAAAAAAAU=\n" = "AAAAAAAAAAU=" := by
  have hname : DataType.ofName? "BumpSequenceOp"
      = some ⟨"BumpSequenceOp", BumpSequenceOp, BumpSequenceOp.schema⟩ := rfl
  obtain ⟨-, hencode, -, htoText⟩ :=
    wire_form_canonical (List.mem_cons_of_mem sponsorSlot (List.mem_of_find?_eq_some hname))
  have hfive : BumpSequenceOp.schema.wire.decode [0, 0, 0, 0, 0, 0, 0, 5] = .ok ⟨5⟩ := rfl
  have hminus : BumpSequenceOp.schema.wire.decode (List.replicate 8 255) = .ok ⟨-1⟩ := rfl
  have hread : BumpSequenceOp.schema.wire.ofBase64 " AAAAAAAAAAU=\n" = .ok ⟨5⟩ := by
    decide +kernel
  have hwritten : BumpSequenceOp.schema.wire.toBase64 ⟨5⟩ = .ok "AAAAAAAAAAU=" := by
    decide +kernel
  exact ⟨hfive, hminus, (hencode ⟨-1⟩ _ hminus).2 _ rfl, (htoText ⟨5⟩ _ hread).1 _ hwritten⟩

/-- **The wire form says where it ends.** What follows a value stays unread, and is refused where
nothing may follow; every part of a value's bytes ends too early; and a value takes whole blocks of
four bytes. -/
theorem wire_form_self_delimiting (ht : t ∈ wireTypes) {p : Bytes} {v : t.Value}
    (hp : t.decode p = .ok v) :
    (∀ s, t.schema.wire.get (.start (p ++ s)) = (.ok v, .start s))
      ∧ (∀ s, s ≠ [] → t.decode (p ++ s) = .error (.trailingBytes s.length))
      ∧ (∀ q, q <+: p → q ≠ p → ∃ needed remaining, remaining < needed
        ∧ t.decode q = .error (.unexpectedEnd needed remaining))
      ∧ 4 ∣ p.length := by
  obtain ⟨nesting, hregular⟩ := regular_of_mem_wireTypes ht
  have h := hregular Reader.defaultLimit
  have hk := Nat.le_refl Reader.defaultLimit
  refine ⟨fun s => ?_, fun s hs => ?_, fun q hq hne => ?_, ?_⟩
  · exact h.get_append hk hp
  · exact h.decode_append hk hp hs
  · exact h.decode_of_proper_prefix hk hp hq hne
  · exact h.dvd_length_of_decode hk hp

/-- A condition that is the opposite of another takes five words. -/
theorem wire_form_self_delimiting_not :
    (∀ s, ClaimPredicate.schema.wire.get
        (.start ([0, 0, 0, 3, 0, 0, 0, 1, 0, 0, 0, 5, 0, 0, 0, 0, 0, 0, 14, 16] ++ s))
      = (.ok (.not (.beforeRelativeTime 3600)), .start s))
      ∧ ∃ needed remaining, remaining < needed
        ∧ ClaimPredicate.schema.wire.decode [0, 0, 0, 3, 0, 0, 0, 1, 0, 0, 0, 5, 0, 0]
          = .error (.unexpectedEnd needed remaining) := by
  have hname : DataType.ofName? "ClaimPredicate"
      = some ⟨"ClaimPredicate", ClaimPredicate, ClaimPredicate.schema⟩ := rfl
  have hp : ClaimPredicate.schema.wire.decode
      [0, 0, 0, 3, 0, 0, 0, 1, 0, 0, 0, 5, 0, 0, 0, 0, 0, 0, 14, 16]
      = .ok (.not (.beforeRelativeTime 3600)) := by decide +kernel
  obtain ⟨hrest, -, hstarves, -⟩ := wire_form_self_delimiting
    (List.mem_cons_of_mem sponsorSlot (List.mem_of_find?_eq_some hname)) hp
  exact ⟨hrest, hstarves _ (by decide) (by decide)⟩

end EveryType

end LedgerWire
