/-
# Enumerations and network settings are regular

The types that are lists of names, and the groups of network settings, which are records of words.
-/

import LedgerWire.Proofs.Types.Names

namespace LedgerWire

open Codec

/-! ### Enumerations -/

theorem OperationType.flat : OperationType.schema.wire.Flat := Enumeration.flat fun a => by
  cases a <;> rfl

theorem LedgerEntryType.flat : LedgerEntryType.schema.wire.Flat := Enumeration.flat fun a => by
  cases a <;> rfl

theorem ContractDataDurability.flat : ContractDataDurability.schema.wire.Flat :=
  Enumeration.flat fun a => by cases a <;> rfl

theorem ScErrorType.flat : ScErrorType.schema.wire.Flat := Enumeration.flat fun a => by
  cases a <;> rfl

theorem ScErrorCode.flat : ScErrorCode.schema.wire.Flat := Enumeration.flat fun a => by
  cases a <;> rfl

namespace ConfigSetting

theorem Id.flat : Id.schema.wire.Flat := Enumeration.flat fun a => by cases a <;> rfl

/-! ### Groups of settings -/

theorem Compute.flat : Compute.schema.wire.Flat :=
  .imap rfl rfl <| .both flat_i64 <| .both flat_i64 <| .both flat_i64 flat_u32

theorem LedgerCost.flat : LedgerCost.schema.wire.Flat :=
  .imap rfl rfl <| .both flat_u32 <| .both flat_u32 <| .both flat_u32 <| .both flat_u32 <|
    .both flat_u32 <| .both flat_u32 <| .both flat_u32 <| .both flat_u32 <| .both flat_i64 <|
    .both flat_i64 <| .both flat_i64 <| .both flat_i64 <| .both flat_i64 <| .both flat_i64 flat_u32

theorem HistoricalData.flat : HistoricalData.schema.wire.Flat := .imap rfl rfl flat_i64

theorem Events.flat : Events.schema.wire.Flat := .imap rfl rfl <| .both flat_u32 flat_i64

theorem Bandwidth.flat : Bandwidth.schema.wire.Flat :=
  .imap rfl rfl <| .both flat_u32 <| .both flat_u32 flat_i64

theorem StateArchival.flat : StateArchival.schema.wire.Flat :=
  .imap rfl rfl <| .both flat_u32 <| .both flat_u32 <| .both flat_u32 <| .both flat_i64 <|
    .both flat_i64 <| .both flat_u32 <| .both flat_u32 <| .both flat_u32 <| .both flat_u32 flat_u32

theorem ExecutionLanes.flat : ExecutionLanes.schema.wire.Flat := .imap rfl rfl flat_u32

theorem EvictionIterator.flat : EvictionIterator.schema.wire.Flat :=
  .imap rfl rfl <| .both flat_u32 <| .both flat_bool flat_u64

theorem ParallelCompute.flat : ParallelCompute.schema.wire.Flat := .imap rfl rfl flat_u32

theorem LedgerCostExtension.flat : LedgerCostExtension.schema.wire.Flat :=
  .imap rfl rfl <| .both flat_u32 flat_i64

theorem ScpTiming.flat : ScpTiming.schema.wire.Flat :=
  .imap rfl rfl <| .both flat_u32 <| .both flat_u32 <| .both flat_u32 <| .both flat_u32 flat_u32

theorem CostParameter.flat : CostParameter.schema.wire.Flat :=
  .imap rfl rfl <| .both Schema.flat_reserved <| .both flat_i64 flat_i64

theorem CostParameter.hungry : CostParameter.schema.wire.get.Hungry :=
  ((Get.hungry_i32.bind _).bind _).bind _

/-! ### Settings -/

theorem flat_costs : costs.wire.Flat := .array CostParameter.hungry CostParameter.flat

theorem flat : ConfigSetting.schema.wire.Flat := by
  have hsizes : (Codec.u64.array Limits.unbounded "BucketListSizeWindow"
      "bucket_list_size_window").Flat := .array Get.hungry_u64 flat_u64
  refine .union (fun a => by cases a <;> rfl) rfl fun k => ?_
  exact .of rfl .u32 <| .of rfl (Compute.flat k) <| .of rfl (LedgerCost.flat k) <|
    .of rfl (HistoricalData.flat k) <| .of rfl (Events.flat k) <| .of rfl (Bandwidth.flat k) <|
    .of rfl (flat_costs k) <| .of rfl (flat_costs k) <| .of rfl .u32 <| .of rfl .u32 <|
    .of rfl (StateArchival.flat k) <| .of rfl (ExecutionLanes.flat k) <| .of rfl (hsizes k) <|
    .of rfl (EvictionIterator.flat k) <| .of rfl (ParallelCompute.flat k) <|
    .of rfl (LedgerCostExtension.flat k) <| .of rfl (ScpTiming.flat k) .nil

end ConfigSetting

end LedgerWire
