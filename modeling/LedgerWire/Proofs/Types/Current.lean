/-
# What operations hold is still supported

The kinds of operations are the one place where the format keeps variants that it no longer
supports. Nothing that an operation holds has any, down to the conditions, contract values and calls
that nest in it. Each instance is read off the schema of its type; the few types whose values are
checked as they are read say that what fails the check is malformed.

* `current_symbolSchema`, `ScError.current` — texts and errors that are checked as they are read.
* `ClaimPredicate.current`, `ScVal.current`, … — recursive values.
* `LedgerKey.current`, `HostFunction.current`, … — one instance a type, up to the payloads of
  operations.
-/

import LedgerWire.Operation.Basic
import LedgerWire.Proofs.Schema.Current

namespace LedgerWire

open Codec (Current CurrentArms current_convert)
open WireError (IsOfInput)

/-! ### Names, amounts and signers -/

instance Hash.current_wire : Hash.wire.Current := by
  unfold Hash.wire
  infer_instance

instance Hash.current : Hash.schema.wire.Current := by
  unfold Hash.schema
  infer_instance

instance Amount.current : Amount.schema.wire.Current := by
  unfold Amount.schema
  infer_instance

instance Price.current : Price.schema.wire.Current := by
  unfold Price.schema
  infer_instance

instance AccountId.current_keyWire : AccountId.keyWire.Current := by
  unfold AccountId.keyWire
  infer_instance

instance AccountId.current_wire : AccountId.wire.Current := by
  unfold AccountId.wire
  infer_instance

instance AccountId.current : AccountId.schema.wire.Current := by
  unfold AccountId.schema
  infer_instance

instance MuxedAccount.current_wire : MuxedAccount.wire.Current := by
  unfold MuxedAccount.wire
  infer_instance

instance MuxedAccount.current : MuxedAccount.schema.wire.Current := by
  unfold MuxedAccount.schema
  infer_instance

instance ContractId.current_wire : ContractId.wire.Current := by
  unfold ContractId.wire
  infer_instance

instance ScAddress.current_wire : ScAddress.wire.Current := by
  unfold ScAddress.wire
  infer_instance

instance ScAddress.current : ScAddress.schema.wire.Current := by
  unfold ScAddress.schema
  infer_instance

instance SignerKey.current_wire : SignerKey.wire.Current := by
  unfold SignerKey.wire
  infer_instance

instance SignerKey.current : SignerKey.schema.wire.Current := by
  unfold SignerKey.schema
  infer_instance

instance Signer.current : Signer.schema.wire.Current := by
  unfold Signer.schema
  infer_instance

/-! ### Assets, pools and claims -/

/-- A code that breaks the rules is malformed. -/
theorem isOfInput_of_codeOfBytes {width : CodeWidth} {raw : Vector UInt8 width.high} {e : WireError}
    (h : codeOfBytes width raw = .error e) : e.IsOfInput := by
  unfold codeOfBytes at h
  dsimp only at h
  split at h
  · cases h
    trivial
  · split at h
    · cases h
      trivial
    · split at h
      · cases h
        trivial
      · cases h

instance current_codeSchema (width : CodeWidth) : (codeSchema width).wire.Current :=
  current_convert _ fun _ _ => isOfInput_of_codeOfBytes

instance Credit.current (width : CodeWidth) : (Credit.schema width).wire.Current := by
  unfold Credit.schema
  infer_instance

instance Asset.currentArms {α : Type} (inject : Asset → α) (project : α → Option Asset) :
    Schema.CurrentArms [] (Asset.arms inject project) := by
  unfold Asset.arms
  infer_instance

instance Asset.current : Asset.schema.wire.Current := by
  unfold Asset.schema
  infer_instance

instance PoolId.current : PoolId.schema.wire.Current := by
  unfold PoolId.schema
  infer_instance

instance LiquidityPoolParameters.current : LiquidityPoolParameters.schema.wire.Current := by
  unfold LiquidityPoolParameters.schema
  infer_instance

instance LineAsset.current {Share : Type} (share : Schema Share) [share.wire.Current] :
    (LineAsset.schemaOf share).wire.Current := by
  unfold LineAsset.schemaOf
  infer_instance

instance ChangeTrustAsset.current : ChangeTrustAsset.schema.wire.Current := by
  unfold ChangeTrustAsset.schema
  infer_instance

instance TrustLineAsset.current : TrustLineAsset.schema.wire.Current := by
  unfold TrustLineAsset.schema
  infer_instance

instance ClaimableBalanceId.current_wire : ClaimableBalanceId.wire.Current := by
  unfold ClaimableBalanceId.wire
  infer_instance

instance ClaimableBalanceId.current : ClaimableBalanceId.schema.wire.Current := by
  unfold ClaimableBalanceId.schema
  infer_instance

namespace ClaimPredicate

variable {self : Schema ClaimPredicate} [self.wire.Current]

instance current_pair : (pair self).wire.Current := by
  have hcount : (Codec.u32.convert (fun n => if n = 2 then .ok ()
      else .error (.malformed "ClaimPredicate" (.childCount n.toNat))) fun () => 2).Current := by
    refine current_convert _ fun n e h => ?_
    split at h
    · cases h
    · cases h
      trivial
  exact Codec.current_imap ..

instance current_child : (child self).wire.Current := by
  refine current_convert _ fun o e h => ?_
  cases o with
  | none =>
      cases h
      trivial
  | some p => cases h

/-- A condition on conditions without retired variants has none. -/
instance current_layout : (layout self).wire.Current := by
  unfold layout
  infer_instance

instance current : schema.wire.Current := Schema.current_recursive fun _ _ => current_layout

end ClaimPredicate

instance Claimant.current : Claimant.schema.wire.Current := by
  unfold Claimant.schema
  infer_instance

/-! ### Contract values -/

instance current_symbolSchema : symbolSchema.wire.Current := by
  have hsymbol :
      ((Codec.text Limits.symbol "ScSymbol" "symbol").convert symbolOfText id).Current := by
    refine current_convert _ fun s e h => ?_
    unfold symbolOfText at h
    split at h
    · cases h
      trivial
    · cases h
  exact Codec.current_guarded _

instance ScErrorCode.current : ScErrorCode.schema.wire.Current := by
  unfold ScErrorCode.schema
  infer_instance

instance ScError.current : ScError.schema.wire.Current := by
  have hhost : CurrentArms
      ((ScErrorType.enumeration.all.filter (· ≠ .contract)).map ScError.hostArm) :=
    ⟨List.forall_mem_map.2 fun _ _ => ScErrorCode.current.reports⟩
  show ScError.wire.Current
  unfold ScError.wire
  infer_instance

instance UInt128Parts.current : UInt128Parts.schema.wire.Current := by
  unfold UInt128Parts.schema
  infer_instance

instance Int128Parts.current : Int128Parts.schema.wire.Current := by
  unfold Int128Parts.schema
  infer_instance

instance UInt256Parts.current : UInt256Parts.schema.wire.Current := by
  unfold UInt256Parts.schema
  infer_instance

instance Int256Parts.current : Int256Parts.schema.wire.Current := by
  unfold Int256Parts.schema
  infer_instance

instance ContractExecutable.current : ContractExecutable.schema.wire.Current := by
  unfold ContractExecutable.schema
  infer_instance

section Levels

variable {self : Schema ScVal} [self.wire.Current]

instance ScMapEntry.current_schemaOf : (ScMapEntry.schemaOf self).wire.Current := by
  unfold ScMapEntry.schemaOf
  infer_instance

instance ScContractInstance.current_schemaOf : (ScContractInstance.schemaOf self).wire.Current := by
  unfold ScContractInstance.schemaOf
  infer_instance

/-- A value of values without retired variants has none. -/
instance ScVal.current_layout : (ScVal.layout self).wire.Current := by
  unfold ScVal.layout
  infer_instance

end Levels

instance ScVal.current : ScVal.schema.wire.Current :=
  Schema.current_recursive fun _ _ => ScVal.current_layout

/-! ### Contract calls -/

instance ContractIdAddressPreimage.current : ContractIdAddressPreimage.schema.wire.Current := by
  unfold ContractIdAddressPreimage.schema
  infer_instance

instance ContractIdPreimage.current : ContractIdPreimage.schema.wire.Current := by
  unfold ContractIdPreimage.schema
  infer_instance

instance InvokeContractArgs.current : InvokeContractArgs.schema.wire.Current := by
  unfold InvokeContractArgs.schema
  infer_instance

instance CreateContractArgs.current : CreateContractArgs.schema.wire.Current := by
  unfold CreateContractArgs.schema
  infer_instance

instance CreateContractArgsV2.current : CreateContractArgsV2.schema.wire.Current := by
  unfold CreateContractArgsV2.schema
  infer_instance

instance HostFunction.current : HostFunction.schema.wire.Current := by
  unfold HostFunction.schema
  infer_instance

instance SorobanAuthorizedFunction.current : SorobanAuthorizedFunction.schema.wire.Current := by
  unfold SorobanAuthorizedFunction.schema
  infer_instance

/-- A tree of calls over trees without retired variants has none. -/
instance SorobanAuthorizedInvocation.current_layout
    {self : Schema SorobanAuthorizedInvocation} [self.wire.Current] :
    (SorobanAuthorizedInvocation.layout self).wire.Current := by
  unfold SorobanAuthorizedInvocation.layout
  infer_instance

instance SorobanAuthorizedInvocation.current : SorobanAuthorizedInvocation.schema.wire.Current :=
  Schema.current_recursive fun _ _ => SorobanAuthorizedInvocation.current_layout

instance SorobanAddressCredentials.current : SorobanAddressCredentials.schema.wire.Current := by
  unfold SorobanAddressCredentials.schema
  infer_instance

instance SorobanCredentials.current : SorobanCredentials.schema.wire.Current := by
  unfold SorobanCredentials.schema
  infer_instance

instance SorobanAuthorizationEntry.current : SorobanAuthorizationEntry.schema.wire.Current := by
  unfold SorobanAuthorizationEntry.schema
  infer_instance

/-! ### Keys of ledger entries -/

instance current_dataNameSchema : dataNameSchema.wire.Current := by
  unfold dataNameSchema
  infer_instance

instance current_dataValueSchema : dataValueSchema.wire.Current := by
  unfold dataValueSchema
  infer_instance

instance ContractDataDurability.current : ContractDataDurability.schema.wire.Current := by
  unfold ContractDataDurability.schema
  infer_instance

instance ConfigSetting.Id.current : ConfigSetting.Id.schema.wire.Current := by
  unfold ConfigSetting.Id.schema
  infer_instance

instance LedgerKey.current : LedgerKey.schema.wire.Current := by
  unfold LedgerKey.schema
  infer_instance

/-! ### Payloads of operations -/

instance current_homeDomainSchema : homeDomainSchema.wire.Current := by
  unfold homeDomainSchema
  infer_instance

instance CreateAccountOp.current : CreateAccountOp.schema.wire.Current := by
  unfold CreateAccountOp.schema
  infer_instance

instance PaymentOp.current : PaymentOp.schema.wire.Current := by
  unfold PaymentOp.schema
  infer_instance

instance PathPaymentStrictReceiveOp.current : PathPaymentStrictReceiveOp.schema.wire.Current := by
  unfold PathPaymentStrictReceiveOp.schema
  infer_instance

instance PathPaymentStrictSendOp.current : PathPaymentStrictSendOp.schema.wire.Current := by
  unfold PathPaymentStrictSendOp.schema
  infer_instance

instance ManageSellOfferOp.current : ManageSellOfferOp.schema.wire.Current := by
  unfold ManageSellOfferOp.schema
  infer_instance

instance ManageBuyOfferOp.current : ManageBuyOfferOp.schema.wire.Current := by
  unfold ManageBuyOfferOp.schema
  infer_instance

instance CreatePassiveSellOfferOp.current : CreatePassiveSellOfferOp.schema.wire.Current := by
  unfold CreatePassiveSellOfferOp.schema
  infer_instance

instance SetOptionsOp.current : SetOptionsOp.schema.wire.Current := by
  unfold SetOptionsOp.schema
  infer_instance

instance ChangeTrustOp.current : ChangeTrustOp.schema.wire.Current := by
  unfold ChangeTrustOp.schema
  infer_instance

instance ManageDataOp.current : ManageDataOp.schema.wire.Current := by
  unfold ManageDataOp.schema
  infer_instance

instance BumpSequenceOp.current : BumpSequenceOp.schema.wire.Current := by
  unfold BumpSequenceOp.schema
  infer_instance

instance CreateClaimableBalanceOp.current : CreateClaimableBalanceOp.schema.wire.Current := by
  unfold CreateClaimableBalanceOp.schema
  infer_instance

instance ClaimClaimableBalanceOp.current : ClaimClaimableBalanceOp.schema.wire.Current := by
  unfold ClaimClaimableBalanceOp.schema
  infer_instance

instance ClawbackClaimableBalanceOp.current : ClawbackClaimableBalanceOp.schema.wire.Current := by
  unfold ClawbackClaimableBalanceOp.schema
  infer_instance

instance BeginSponsoringFutureReservesOp.current :
    BeginSponsoringFutureReservesOp.schema.wire.Current := by
  unfold BeginSponsoringFutureReservesOp.schema
  infer_instance

instance RevokeSponsorshipOp.current : RevokeSponsorshipOp.schema.wire.Current := by
  unfold RevokeSponsorshipOp.schema
  infer_instance

instance ClawbackOp.current : ClawbackOp.schema.wire.Current := by
  unfold ClawbackOp.schema
  infer_instance

instance SetTrustLineFlagsOp.current : SetTrustLineFlagsOp.schema.wire.Current := by
  unfold SetTrustLineFlagsOp.schema
  infer_instance

instance LiquidityPoolDepositOp.current : LiquidityPoolDepositOp.schema.wire.Current := by
  unfold LiquidityPoolDepositOp.schema
  infer_instance

instance LiquidityPoolWithdrawOp.current : LiquidityPoolWithdrawOp.schema.wire.Current := by
  unfold LiquidityPoolWithdrawOp.schema
  infer_instance

instance InvokeHostFunctionOp.current : InvokeHostFunctionOp.schema.wire.Current := by
  unfold InvokeHostFunctionOp.schema
  infer_instance

instance ExtendFootprintTtlOp.current : ExtendFootprintTtlOp.schema.wire.Current := by
  unfold ExtendFootprintTtlOp.schema
  infer_instance

instance RestoreFootprintOp.current : RestoreFootprintOp.schema.wire.Current := by
  unfold RestoreFootprintOp.schema
  infer_instance

end LedgerWire
