/-
# Network settings

Each group of the network's tunables is a ledger entry of its own, named by its id.

* `ConfigSetting` — a setting: one of the groups, or a single size or list.
* `ConfigSetting.id` — the name under which the ledger keeps it.
-/

import LedgerWire.Limits
import LedgerWire.ConfigSetting.Groups

namespace LedgerWire

namespace ConfigSetting

/-- The name of a setting. -/
inductive Id where
  | contractMaxSize
  | compute
  | ledgerCost
  | historicalData
  | events
  | bandwidth
  | instructionCosts
  | memoryCosts
  | dataKeySize
  | dataEntrySize
  | stateArchival
  | executionLanes
  | bucketListSizeWindow
  | evictionIterator
  | parallelCompute
  | ledgerCostExtension
  | scpTiming
  deriving DecidableEq, Repr

namespace Id

def table : List (String × Int32 × Id) :=
  [ ("ContractMaxSizeBytes", 0, .contractMaxSize), ("ContractComputeV0", 1, .compute),
    ("ContractLedgerCostV0", 2, .ledgerCost), ("ContractHistoricalDataV0", 3, .historicalData),
    ("ContractEventsV0", 4, .events), ("ContractBandwidthV0", 5, .bandwidth),
    ("ContractCostParamsCpuInstructions", 6, .instructionCosts),
    ("ContractCostParamsMemoryBytes", 7, .memoryCosts),
    ("ContractDataKeySizeBytes", 8, .dataKeySize),
    ("ContractDataEntrySizeBytes", 9, .dataEntrySize), ("StateArchival", 10, .stateArchival),
    ("ContractExecutionLanes", 11, .executionLanes),
    ("BucketListSizeWindow", 12, .bucketListSizeWindow),
    ("EvictionIterator", 13, .evictionIterator),
    ("ContractParallelComputeV0", 14, .parallelCompute),
    ("ContractLedgerCostExtV0", 15, .ledgerCostExtension), ("ScpTiming", 16, .scpTiming) ]

def enumeration : Enumeration Id := .ofTable "ConfigSettingId" table

def schema : Schema Id := enumeration.schema

end Id

end ConfigSetting

open ConfigSetting in
inductive ConfigSetting where
  | contractMaxSize (bytes : UInt32)
  | compute (s : Compute)
  | ledgerCost (s : LedgerCost)
  | historicalData (s : HistoricalData)
  | events (s : Events)
  | bandwidth (s : Bandwidth)
  | instructionCosts (costs : List CostParameter)
  | memoryCosts (costs : List CostParameter)
  | dataKeySize (bytes : UInt32)
  | dataEntrySize (bytes : UInt32)
  | stateArchival (s : StateArchival)
  | executionLanes (s : ExecutionLanes)
  | bucketListSizeWindow (sizes : List UInt64)
  | evictionIterator (s : EvictionIterator)
  | parallelCompute (s : ParallelCompute)
  | ledgerCostExtension (s : LedgerCostExtension)
  | scpTiming (s : ScpTiming)
  deriving DecidableEq, Repr

namespace ConfigSetting

open Schema

def id : ConfigSetting → Id
  | .contractMaxSize _ => .contractMaxSize
  | .compute _ => .compute
  | .ledgerCost _ => .ledgerCost
  | .historicalData _ => .historicalData
  | .events _ => .events
  | .bandwidth _ => .bandwidth
  | .instructionCosts _ => .instructionCosts
  | .memoryCosts _ => .memoryCosts
  | .dataKeySize _ => .dataKeySize
  | .dataEntrySize _ => .dataEntrySize
  | .stateArchival _ => .stateArchival
  | .executionLanes _ => .executionLanes
  | .bucketListSizeWindow _ => .bucketListSizeWindow
  | .evictionIterator _ => .evictionIterator
  | .parallelCompute _ => .parallelCompute
  | .ledgerCostExtension _ => .ledgerCostExtension
  | .scpTiming _ => .scpTiming

/-- A table of costs. -/
def costs : Schema (List CostParameter) :=
  .array Limits.costParameters "ContractCostParams" "contract_cost_params" CostParameter.schema

def schema : Schema ConfigSetting :=
  .union "ConfigSettingId"
    [ .of 0 "contract_max_size_bytes" .u32 .contractMaxSize fun
        | .contractMaxSize bytes => some bytes
        | _ => none,
      .of 1 "contract_compute_v0" Compute.schema .compute fun | .compute s => some s | _ => none,
      .of 2 "contract_ledger_cost_v0" LedgerCost.schema .ledgerCost fun
        | .ledgerCost s => some s
        | _ => none,
      .of 3 "contract_historical_data_v0" HistoricalData.schema .historicalData fun
        | .historicalData s => some s
        | _ => none,
      .of 4 "contract_events_v0" Events.schema .events fun | .events s => some s | _ => none,
      .of 5 "contract_bandwidth_v0" Bandwidth.schema .bandwidth fun
        | .bandwidth s => some s
        | _ => none,
      .of 6 "contract_cost_params_cpu_instructions" costs .instructionCosts fun
        | .instructionCosts costs => some costs
        | _ => none,
      .of 7 "contract_cost_params_memory_bytes" costs .memoryCosts fun
        | .memoryCosts costs => some costs
        | _ => none,
      .of 8 "contract_data_key_size_bytes" .u32 .dataKeySize fun
        | .dataKeySize bytes => some bytes
        | _ => none,
      .of 9 "contract_data_entry_size_bytes" .u32 .dataEntrySize fun
        | .dataEntrySize bytes => some bytes
        | _ => none,
      .of 10 "state_archival" StateArchival.schema .stateArchival fun
        | .stateArchival s => some s
        | _ => none,
      .of 11 "contract_execution_lanes" ExecutionLanes.schema .executionLanes fun
        | .executionLanes s => some s
        | _ => none,
      .of 12 "bucket_list_size_window"
        (.array Limits.unbounded "BucketListSizeWindow" "bucket_list_size_window" .u64)
        .bucketListSizeWindow fun | .bucketListSizeWindow sizes => some sizes | _ => none,
      .of 13 "eviction_iterator" EvictionIterator.schema .evictionIterator fun
        | .evictionIterator s => some s
        | _ => none,
      .of 14 "contract_parallel_compute_v0" ParallelCompute.schema .parallelCompute fun
        | .parallelCompute s => some s
        | _ => none,
      .of 15 "contract_ledger_cost_ext_v0" LedgerCostExtension.schema .ledgerCostExtension fun
        | .ledgerCostExtension s => some s
        | _ => none,
      .of 16 "scp_timing" ScpTiming.schema .scpTiming fun | .scpTiming s => some s | _ => none ]

end ConfigSetting

end LedgerWire
