/-
# Groups of network settings

The tunables of contract execution, in the groups in which the network stores and votes on them.
Each group is a flat record of words; its schema lists the fields in the order of the wire.
-/

import LedgerWire.Schema.Record
import LedgerWire.Schema.Union

namespace LedgerWire.ConfigSetting

open Schema

/-- Bounds and prices of instructions. Fees are per ten thousand instructions. -/
structure Compute where
  ledgerMaxInstructions : Int64
  txMaxInstructions : Int64
  feeRatePerInstructionsIncrement : Int64
  txMemoryLimit : UInt32
  deriving DecidableEq, Repr

def Compute.schema : Schema Compute :=
  (field "ledger_max_instructions" .i64 >> field "tx_max_instructions" .i64
    >> field "fee_rate_per_instructions_increment" .i64 >> field "tx_memory_limit" .u32).record
    (fun (ledgerMaxInstructions, txMaxInstructions, feeRatePerInstructionsIncrement,
      txMemoryLimit) =>
      ⟨ledgerMaxInstructions, txMaxInstructions, feeRatePerInstructionsIncrement, txMemoryLimit⟩)
    fun s => (s.ledgerMaxInstructions, s.txMaxInstructions, s.feeRatePerInstructionsIncrement,
      s.txMemoryLimit)

/-- Bounds and fees of reading and writing ledger entries. -/
structure LedgerCost where
  ledgerMaxReadLedgerEntries : UInt32
  ledgerMaxReadBytes : UInt32
  ledgerMaxWriteLedgerEntries : UInt32
  ledgerMaxWriteBytes : UInt32
  txMaxReadLedgerEntries : UInt32
  txMaxReadBytes : UInt32
  txMaxWriteLedgerEntries : UInt32
  txMaxWriteBytes : UInt32
  feeReadLedgerEntry : Int64
  feeWriteLedgerEntry : Int64
  feeRead1Kb : Int64
  bucketListTargetSizeBytes : Int64
  writeFee1KbBucketListLow : Int64
  writeFee1KbBucketListHigh : Int64
  bucketListWriteFeeGrowthFactor : UInt32
  deriving DecidableEq, Repr

def LedgerCost.schema : Schema LedgerCost :=
  (field "ledger_max_read_ledger_entries" .u32 >> field "ledger_max_read_bytes" .u32
    >> field "ledger_max_write_ledger_entries" .u32 >> field "ledger_max_write_bytes" .u32
    >> field "tx_max_read_ledger_entries" .u32 >> field "tx_max_read_bytes" .u32
    >> field "tx_max_write_ledger_entries" .u32 >> field "tx_max_write_bytes" .u32
    >> field "fee_read_ledger_entry" .i64 >> field "fee_write_ledger_entry" .i64
    >> field "fee_read_1kb" .i64 >> field "bucket_list_target_size_bytes" .i64
    >> field "write_fee_1kb_bucket_list_low" .i64 >> field "write_fee_1kb_bucket_list_high" .i64
    >> field "bucket_list_write_fee_growth_factor" .u32).record
    (fun (ledgerMaxReadLedgerEntries, ledgerMaxReadBytes, ledgerMaxWriteLedgerEntries,
      ledgerMaxWriteBytes, txMaxReadLedgerEntries, txMaxReadBytes, txMaxWriteLedgerEntries,
      txMaxWriteBytes, feeReadLedgerEntry, feeWriteLedgerEntry, feeRead1Kb,
      bucketListTargetSizeBytes, writeFee1KbBucketListLow, writeFee1KbBucketListHigh,
      bucketListWriteFeeGrowthFactor) =>
      ⟨ledgerMaxReadLedgerEntries, ledgerMaxReadBytes, ledgerMaxWriteLedgerEntries,
        ledgerMaxWriteBytes, txMaxReadLedgerEntries, txMaxReadBytes, txMaxWriteLedgerEntries,
        txMaxWriteBytes, feeReadLedgerEntry, feeWriteLedgerEntry, feeRead1Kb,
        bucketListTargetSizeBytes, writeFee1KbBucketListLow, writeFee1KbBucketListHigh,
        bucketListWriteFeeGrowthFactor⟩)
    fun s => (s.ledgerMaxReadLedgerEntries, s.ledgerMaxReadBytes, s.ledgerMaxWriteLedgerEntries,
      s.ledgerMaxWriteBytes, s.txMaxReadLedgerEntries, s.txMaxReadBytes,
      s.txMaxWriteLedgerEntries, s.txMaxWriteBytes, s.feeReadLedgerEntry, s.feeWriteLedgerEntry,
      s.feeRead1Kb, s.bucketListTargetSizeBytes, s.writeFee1KbBucketListLow,
      s.writeFee1KbBucketListHigh, s.bucketListWriteFeeGrowthFactor)

structure HistoricalData where
  feeHistorical1Kb : Int64
  deriving DecidableEq, Repr

def HistoricalData.schema : Schema HistoricalData :=
  (field "fee_historical_1kb" .i64).record (⟨·⟩) (·.feeHistorical1Kb)

structure Events where
  txMaxContractEventsSizeBytes : UInt32
  feeContractEvents1Kb : Int64
  deriving DecidableEq, Repr

def Events.schema : Schema Events :=
  (field "tx_max_contract_events_size_bytes" .u32 >> field "fee_contract_events_1kb" .i64).record
    (fun (txMaxContractEventsSizeBytes, feeContractEvents1Kb) =>
      ⟨txMaxContractEventsSizeBytes, feeContractEvents1Kb⟩)
    fun s => (s.txMaxContractEventsSizeBytes, s.feeContractEvents1Kb)

structure Bandwidth where
  ledgerMaxTxsSizeBytes : UInt32
  txMaxSizeBytes : UInt32
  feeTxSize1Kb : Int64
  deriving DecidableEq, Repr

def Bandwidth.schema : Schema Bandwidth :=
  (field "ledger_max_txs_size_bytes" .u32 >> field "tx_max_size_bytes" .u32
    >> field "fee_tx_size_1kb" .i64).record
    (fun (ledgerMaxTxsSizeBytes, txMaxSizeBytes, feeTxSize1Kb) =>
      ⟨ledgerMaxTxsSizeBytes, txMaxSizeBytes, feeTxSize1Kb⟩)
    fun s => (s.ledgerMaxTxsSizeBytes, s.txMaxSizeBytes, s.feeTxSize1Kb)

/-- How long entries live, and how expired ones are archived. -/
structure StateArchival where
  maxEntryTtl : UInt32
  minTemporaryTtl : UInt32
  minPersistentTtl : UInt32
  persistentRentRateDenominator : Int64
  tempRentRateDenominator : Int64
  maxEntriesToArchive : UInt32
  bucketListSizeWindowSampleSize : UInt32
  bucketListWindowSamplePeriod : UInt32
  evictionScanSize : UInt32
  startingEvictionScanLevel : UInt32
  deriving DecidableEq, Repr

def StateArchival.schema : Schema StateArchival :=
  (field "max_entry_ttl" .u32 >> field "min_temporary_ttl" .u32 >> field "min_persistent_ttl" .u32
    >> field "persistent_rent_rate_denominator" .i64 >> field "temp_rent_rate_denominator" .i64
    >> field "max_entries_to_archive" .u32 >> field "bucket_list_size_window_sample_size" .u32
    >> field "bucket_list_window_sample_period" .u32 >> field "eviction_scan_size" .u32
    >> field "starting_eviction_scan_level" .u32).record
    (fun (maxEntryTtl, minTemporaryTtl, minPersistentTtl, persistentRentRateDenominator,
      tempRentRateDenominator, maxEntriesToArchive, bucketListSizeWindowSampleSize,
      bucketListWindowSamplePeriod, evictionScanSize, startingEvictionScanLevel) =>
      ⟨maxEntryTtl, minTemporaryTtl, minPersistentTtl, persistentRentRateDenominator,
        tempRentRateDenominator, maxEntriesToArchive, bucketListSizeWindowSampleSize,
        bucketListWindowSamplePeriod, evictionScanSize, startingEvictionScanLevel⟩)
    fun s => (s.maxEntryTtl, s.minTemporaryTtl, s.minPersistentTtl, s.persistentRentRateDenominator,
      s.tempRentRateDenominator, s.maxEntriesToArchive, s.bucketListSizeWindowSampleSize,
      s.bucketListWindowSamplePeriod, s.evictionScanSize, s.startingEvictionScanLevel)

/-- How many contract transactions a ledger takes. -/
structure ExecutionLanes where
  ledgerMaxTxCount : UInt32
  deriving DecidableEq, Repr

def ExecutionLanes.schema : Schema ExecutionLanes :=
  (field "ledger_max_tx_count" .u32).record (⟨·⟩) (·.ledgerMaxTxCount)

/-- Where the scan for expired entries stopped. -/
structure EvictionIterator where
  bucketListLevel : UInt32
  isCurrBucket : Bool
  bucketFileOffset : UInt64
  deriving DecidableEq, Repr

def EvictionIterator.schema : Schema EvictionIterator :=
  (field "bucket_list_level" .u32 >> field "is_curr_bucket" .bool
    >> field "bucket_file_offset" .u64).record
    (fun (bucketListLevel, isCurrBucket, bucketFileOffset) =>
      ⟨bucketListLevel, isCurrBucket, bucketFileOffset⟩)
    fun s => (s.bucketListLevel, s.isCurrBucket, s.bucketFileOffset)

/-- How many clusters of dependent transactions a ledger takes. -/
structure ParallelCompute where
  ledgerMaxDependentTxClusters : UInt32
  deriving DecidableEq, Repr

def ParallelCompute.schema : Schema ParallelCompute :=
  (field "ledger_max_dependent_tx_clusters" .u32).record (⟨·⟩) (·.ledgerMaxDependentTxClusters)

/-- The bound of footprints, and the fee of writing. -/
structure LedgerCostExtension where
  txMaxFootprintEntries : UInt32
  feeWrite1Kb : Int64
  deriving DecidableEq, Repr

def LedgerCostExtension.schema : Schema LedgerCostExtension :=
  (field "tx_max_footprint_entries" .u32 >> field "fee_write_1kb" .i64).record
    (fun (txMaxFootprintEntries, feeWrite1Kb) =>
      ⟨txMaxFootprintEntries, feeWrite1Kb⟩)
    fun s => (s.txMaxFootprintEntries, s.feeWrite1Kb)

/-- The timing of consensus rounds, in milliseconds. -/
structure ScpTiming where
  ledgerTargetCloseTimeMilliseconds : UInt32
  nominationTimeoutInitialMilliseconds : UInt32
  nominationTimeoutIncrementMilliseconds : UInt32
  ballotTimeoutInitialMilliseconds : UInt32
  ballotTimeoutIncrementMilliseconds : UInt32
  deriving DecidableEq, Repr

def ScpTiming.schema : Schema ScpTiming :=
  (field "ledger_target_close_time_milliseconds" .u32
    >> field "nomination_timeout_initial_milliseconds" .u32
    >> field "nomination_timeout_increment_milliseconds" .u32
    >> field "ballot_timeout_initial_milliseconds" .u32
    >> field "ballot_timeout_increment_milliseconds" .u32).record
    (fun (ledgerTargetCloseTimeMilliseconds, nominationTimeoutInitialMilliseconds,
      nominationTimeoutIncrementMilliseconds, ballotTimeoutInitialMilliseconds,
      ballotTimeoutIncrementMilliseconds) =>
      ⟨ledgerTargetCloseTimeMilliseconds, nominationTimeoutInitialMilliseconds,
        nominationTimeoutIncrementMilliseconds, ballotTimeoutInitialMilliseconds,
        ballotTimeoutIncrementMilliseconds⟩)
    fun s => (s.ledgerTargetCloseTimeMilliseconds, s.nominationTimeoutInitialMilliseconds,
      s.nominationTimeoutIncrementMilliseconds, s.ballotTimeoutInitialMilliseconds,
      s.ballotTimeoutIncrementMilliseconds)

/-- A term of the linear model of a cost: a constant, and a factor of the input's size. -/
structure CostParameter where
  constTerm : Int64
  linearTerm : Int64
  deriving DecidableEq, Repr

/-- On the wire and in JSON, behind a reserved slot. -/
def CostParameter.schema : Schema CostParameter :=
  (field "ext" reserved >> field "const_term" .i64 >> field "linear_term" .i64).record
    (fun ((), constTerm, linearTerm) => ⟨constTerm, linearTerm⟩)
    fun p => ((), p.constTerm, p.linearTerm)

end LedgerWire.ConfigSetting
