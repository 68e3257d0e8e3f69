/-
# Types that are read as strictly as they are written

Contract values and calls, assets, signers, conditions and network settings: their few rules are
judged in both directions, or hold of everything that can be read. Each proof repeats the schema of
its type.

* `codeView`, `symbolView` — codes and symbols are shown only if they obey their rules.
* `ScError.strict` — no discriminant is read as a failure of the host in the contract's own part.
* `ScVal.strict`, `SorobanAuthorizedInvocation.strict`, `ClaimPredicate.strict` — recursive values.
-/

import LedgerWire.Proofs.Types.Operations
import LedgerWire.Proofs.Wire.Strict

namespace LedgerWire

open Codec

/-! ### Names and signers -/

theorem Hash.strict : Hash.schema.wire.Strict := .imap rfl (strict_fixed 32)

theorem AccountId.strict_keyWire : AccountId.keyWire.Strict := .imap rfl (strict_fixed 32)

theorem AccountId.strict : AccountId.schema.wire.Strict := .single AccountId.strict_keyWire

theorem ContractId.strict : ContractId.schema.wire.Strict := .imap rfl Hash.strict

theorem ScAddress.strict : ScAddress.schema.wire.Strict :=
  .union (fun a => by cases a <;> rfl) rfl <|
    .of rfl AccountId.strict <| .of rfl ContractId.strict .nil

theorem SignerKey.strict : SignerKey.schema.wire.Strict := by
  have hpayload : (AccountId.keyWire.both
      (.bytes Limits.signedPayload "signed_payload" "signed_payload")).Strict :=
    .both AccountId.strict_keyWire (strict_bytes _ _ _)
  exact .union (fun a => by cases a <;> rfl) rfl <|
    .of rfl AccountId.strict_keyWire <| .of rfl Hash.strict <| .of rfl Hash.strict <|
    .of rfl hpayload .nil

/-! ### Assets -/

theorem Credit.strict (width : CodeWidth) : (Credit.schema width).wire.Strict := by
  have hcode : ((codeSchema width).wire.guarded (checkCode width)).Strict :=
    .view (codeView width) (fun h => checkCode_eq_ok_iff.2 (codeOfBytes_eq_ok_iff.1 h).1)
      (strict_fixed _)
  have hcredit : ((((codeSchema width).wire.guarded (checkCode width)).both AccountId.wire).imap
      (fun x => Credit.mk x.1 x.2) fun c => (c.code, c.issuer)).Strict :=
    .imap rfl (hcode.both AccountId.strict)
  rwa [← Codec.guarded_both] at hcredit

namespace Asset

variable {α : Type} {inject : Asset → α} {project : α → Option Asset}

/-- The arms of the plain assets are strict, with any arms behind them. -/
theorem strict_arms (hproject : ∀ a, project (inject a) = some a) {rest : List (Codec.Arm α)}
    (hrest : StrictArms rest) :
    StrictArms ((arms inject project).map Schema.Arm.wire ++ rest) := by
  have hnative : (project (inject .native) == some .native) = true := by simp [hproject]
  have hcredit : ∀ w c, (project (inject (.credit w c))).bind (credit? w) = some c := by
    intro w c
    rw [hproject]
    exact if_pos rfl
  exact .bare hnative <| .of (funext (hcredit .four)) (Credit.strict .four) <|
    .of (funext (hcredit .twelve)) (Credit.strict .twelve) hrest

theorem strict : Asset.schema.wire.Strict := by
  refine .union (fun a => ?_) rfl (strict_arms (fun _ => rfl) .nil)
  rcases a with _ | ⟨_ | _, _⟩ <;> rfl

end Asset

theorem TrustLineAsset.strict : TrustLineAsset.schema.wire.Strict := by
  refine .union (fun x => ?_) rfl ?_
  · rcases x with _ | ⟨_ | _, _⟩ | _ <;> rfl
  · show StrictArms ((Asset.arms _ _).map Schema.Arm.wire ++ [_])
    have hpool : PoolId.schema.wire.Strict := .imap rfl Hash.strict
    exact Asset.strict_arms LineAsset.asset?_asset (.of rfl hpool .nil)

/-! ### Conditions -/

namespace ClaimPredicate

theorem strict_layout {self : Schema ClaimPredicate} (h : self.wire.Strict) :
    (layout self).wire.Strict := by
  have hpair : (pair self).wire.Strict :=
    .imap rfl (.both (.convert pairView.toWire_of_ofWire strict_u32) (h.both h))
  have hchild : (child self).wire.Strict := .convert childView.toWire_of_ofWire h.optional
  refine .union (fun a => by cases a <;> rfl) rfl ?_
  exact .bare rfl <| .of rfl hpair <| .of rfl hpair <| .of rfl hchild <|
    .of rfl strict_i64 <| .of rfl strict_i64 .nil

theorem strict : schema.wire.Strict :=
  Schema.strict_recursive local_layout (fun _ h => strict_layout h)
    fun _ _ _ => Regular.nesting_le_of_get regular

end ClaimPredicate

/-! ### Network settings -/

namespace ConfigSetting

theorem Compute.strict : Compute.schema.wire.Strict :=
  .imap rfl <| .both strict_i64 <| .both strict_i64 <| .both strict_i64 strict_u32

theorem LedgerCost.strict : LedgerCost.schema.wire.Strict :=
  .imap rfl <| .both strict_u32 <| .both strict_u32 <| .both strict_u32 <| .both strict_u32 <|
    .both strict_u32 <| .both strict_u32 <| .both strict_u32 <| .both strict_u32 <|
    .both strict_i64 <| .both strict_i64 <| .both strict_i64 <| .both strict_i64 <|
    .both strict_i64 <| .both strict_i64 strict_u32

theorem StateArchival.strict : StateArchival.schema.wire.Strict :=
  .imap rfl <| .both strict_u32 <| .both strict_u32 <| .both strict_u32 <| .both strict_i64 <|
    .both strict_i64 <| .both strict_u32 <| .both strict_u32 <| .both strict_u32 <|
    .both strict_u32 strict_u32

theorem ScpTiming.strict : ScpTiming.schema.wire.Strict :=
  .imap rfl <| .both strict_u32 <| .both strict_u32 <| .both strict_u32 <|
    .both strict_u32 strict_u32

theorem strict_costs : costs.wire.Strict := by
  have hreserved : Schema.reserved.wire.Strict := .single strict_unit
  have hparameter : CostParameter.schema.wire.Strict :=
    .imap rfl <| .both hreserved <| .both strict_i64 strict_i64
  exact hparameter.array

theorem strict : ConfigSetting.schema.wire.Strict := by
  have hhistorical : HistoricalData.schema.wire.Strict := .imap rfl strict_i64
  have hevents : Events.schema.wire.Strict := .imap rfl <| .both strict_u32 strict_i64
  have hbandwidth : Bandwidth.schema.wire.Strict :=
    .imap rfl <| .both strict_u32 <| .both strict_u32 strict_i64
  have hlanes : ExecutionLanes.schema.wire.Strict := .imap rfl strict_u32
  have hiterator : EvictionIterator.schema.wire.Strict :=
    .imap rfl <| .both strict_u32 <| .both strict_bool strict_u64
  have hparallel : ParallelCompute.schema.wire.Strict := .imap rfl strict_u32
  have hextension : LedgerCostExtension.schema.wire.Strict :=
    .imap rfl <| .both strict_u32 strict_i64
  refine .union (fun a => by cases a <;> rfl) rfl ?_
  exact .of rfl strict_u32 <| .of rfl Compute.strict <| .of rfl LedgerCost.strict <|
    .of rfl hhistorical <| .of rfl hevents <| .of rfl hbandwidth <| .of rfl strict_costs <|
    .of rfl strict_costs <| .of rfl strict_u32 <| .of rfl strict_u32 <|
    .of rfl StateArchival.strict <| .of rfl hlanes <| .of rfl strict_u64.array <|
    .of rfl hiterator <| .of rfl hparallel <| .of rfl hextension <| .of rfl ScpTiming.strict .nil

end ConfigSetting

/-! ### Contract values -/

/-- Symbols are strict: reading one makes the check that writing it does. -/
theorem strict_symbol : symbolSchema.wire.Strict := by
  refine .view symbolView (fun {t s} h => ?_) (strict_text _ _ _)
  unfold symbolOfText at h
  unfold checkSymbol
  split at h
  · cases h
  · rename_i hnone
    cases h
    rw [hnone]

/-- **No failure of the host is read in the contract's own part**: the discriminant of that part
selects the contract's own code. -/
theorem ScError.strict : ScError.schema.wire.Strict := by
  have hhost : StrictArms ((ScErrorType.enumeration.all.filter (· ≠ .contract)).map hostArm) :=
    List.forall_mem_map.2 fun type _ => ⟨fun _ => if_pos rfl, ScErrorCode.enumeration.strict⟩
  refine .guarded_union (fun e => ?_) rfl (fun arm harm payload => ?_) (.of rfl strict_u32 hhost)
  · cases e with
    | contract code => exact .inl rfl
    | host type code => cases type with
      | contract => exact .inr rfl
      | _ => exact .inl rfl
  · rcases List.mem_cons.1 harm with rfl | hmem
    · rfl
    · obtain ⟨type, htype, rfl⟩ := List.mem_map.1 hmem
      have hne : type ≠ .contract := by simpa using (List.mem_filter.1 htype).2
      cases type with
      | contract => exact absurd rfl hne
      | _ => rfl

theorem ContractExecutable.strict : ContractExecutable.schema.wire.Strict :=
  .union (fun a => by cases a <;> rfl) rfl <| .of rfl Hash.strict <| .bare rfl .nil

namespace ScVal

variable {self : Schema ScVal}

theorem strict_entry (h : self.wire.Strict) : (ScMapEntry.schemaOf self).wire.Strict :=
  .imap rfl (h.both h)

theorem strict_instance (h : self.wire.Strict) : (ScContractInstance.schemaOf self).wire.Strict :=
  .imap rfl (.both ContractExecutable.strict (strict_entry h).array.optional)

theorem strict_layout (h : self.wire.Strict) : (layout self).wire.Strict := by
  have hu128 : UInt128Parts.schema.wire.Strict := .imap rfl <| .both strict_u64 strict_u64
  have hi128 : Int128Parts.schema.wire.Strict := .imap rfl <| .both strict_i64 strict_u64
  have hu256 : UInt256Parts.schema.wire.Strict :=
    .imap rfl <| .both strict_u64 <| .both strict_u64 <| .both strict_u64 strict_u64
  have hi256 : Int256Parts.schema.wire.Strict :=
    .imap rfl <| .both strict_i64 <| .both strict_u64 <| .both strict_u64 strict_u64
  refine .union (fun a => by cases a <;> rfl) rfl ?_
  exact .of rfl strict_bool <| .bare rfl <| .of rfl ScError.strict <| .of rfl strict_u32 <|
    .of rfl strict_i32 <| .of rfl strict_u64 <| .of rfl strict_i64 <| .of rfl strict_u64 <|
    .of rfl strict_u64 <| .of rfl hu128 <| .of rfl hi128 <| .of rfl hu256 <| .of rfl hi256 <|
    .of rfl (strict_bytes _ _ _) <| .of rfl (strict_bytes _ _ _) <| .of rfl strict_symbol <|
    .of rfl h.array.optional <| .of rfl (strict_entry h).array.optional <|
    .of rfl ScAddress.strict <| .of rfl (strict_instance h) <| .bare rfl <| .of rfl strict_i64 .nil

theorem strict : schema.wire.Strict :=
  Schema.strict_recursive local_layout (fun _ h => strict_layout h)
    fun _ _ _ => Regular.nesting_le_of_get regular

end ScVal

theorem ScContractInstance.strict : ScContractInstance.schema.wire.Strict :=
  ScVal.strict_instance ScVal.strict

/-! ### Requests to the host -/

theorem ContractIdPreimage.strict : ContractIdPreimage.schema.wire.Strict := by
  have haddress : ContractIdAddressPreimage.schema.wire.Strict :=
    .imap rfl (.both ScAddress.strict (strict_fixed 32))
  exact .union (fun a => by cases a <;> rfl) rfl <|
    .of rfl haddress <| .of rfl Asset.strict .nil

theorem InvokeContractArgs.strict : InvokeContractArgs.schema.wire.Strict :=
  .imap rfl <| .both ScAddress.strict <| .both strict_symbol ScVal.strict.array

theorem CreateContractArgs.strict : CreateContractArgs.schema.wire.Strict :=
  .imap rfl <| .both ContractIdPreimage.strict ContractExecutable.strict

theorem CreateContractArgsV2.strict : CreateContractArgsV2.schema.wire.Strict :=
  .imap rfl <| .both ContractIdPreimage.strict <|
    .both ContractExecutable.strict ScVal.strict.array

theorem HostFunction.strict : HostFunction.schema.wire.Strict :=
  .union (fun a => by cases a <;> rfl) rfl <|
    .of rfl InvokeContractArgs.strict <| .of rfl CreateContractArgs.strict <|
    .of rfl (strict_bytes _ _ _) <| .of rfl CreateContractArgsV2.strict .nil

/-! ### Authorizations -/

theorem SorobanAuthorizedFunction.strict : SorobanAuthorizedFunction.schema.wire.Strict :=
  .union (fun a => by cases a <;> rfl) rfl <|
    .of rfl InvokeContractArgs.strict <| .of rfl CreateContractArgs.strict <|
    .of rfl CreateContractArgsV2.strict .nil

/-- The height of a tree is no more than its nesting, which is what reading counts. -/
theorem SorobanAuthorizedInvocation.strict : SorobanAuthorizedInvocation.schema.wire.Strict := by
  refine Schema.strict_recursive local_layout (fun self h => ?_) fun r r' t hget => ?_
  · exact .imap rfl (.both SorobanAuthorizedFunction.strict h.array)
  · have hnesting : t.nesting ≤ r.room := Regular.nesting_le_of_get regular hget
    exact Nat.le_trans t.depth_le_nesting hnesting

theorem SorobanCredentials.strict : SorobanCredentials.schema.wire.Strict := by
  have haddress : SorobanAddressCredentials.schema.wire.Strict :=
    .imap rfl <| .both ScAddress.strict <| .both strict_i64 <| .both strict_u32 ScVal.strict
  exact .union (fun a => by cases a <;> rfl) rfl <| .bare rfl <| .of rfl haddress .nil

theorem SorobanAuthorizationEntry.strict : SorobanAuthorizationEntry.schema.wire.Strict :=
  .imap rfl (.both SorobanCredentials.strict SorobanAuthorizedInvocation.strict)

theorem InvokeHostFunctionOp.strict : InvokeHostFunctionOp.schema.wire.Strict :=
  .imap rfl (.both HostFunction.strict SorobanAuthorizationEntry.strict.array)

end LedgerWire
