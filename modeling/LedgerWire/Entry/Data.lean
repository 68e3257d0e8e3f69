/-
# Entries of data and code

What the ledger keeps for programs: named values that accounts attach to themselves, the data and
the code of contracts, and when those expire.

* `DataEntry`, `ContractDataEntry`, `ContractCodeEntry`, `TtlEntry` — the entries.
* `DataEntry.validate` — the bounds that a named value is written under.
-/

import LedgerWire.Entry.Key

namespace LedgerWire

open Schema

/-! ### Named values -/

/-- A value that an account keeps under a name. -/
structure DataEntry where
  accountId : AccountId
  dataName : String
  dataValue : Bytes
  deriving DecidableEq, Repr

/-- A value of bounded length on the wire, and as hexadecimal digits in JSON. -/
def dataValueSchema : Schema Bytes := .bytes Limits.dataValue "DataValue" "data_value"

namespace DataEntry

/-- The name obeys its rule, and the value has at most 64 bytes. -/
def validate (d : DataEntry) : Except WireError Unit := do
  checkDataName d.dataName
  if Limits.dataValue.toNat < d.dataValue.length then
    throw (.validation "data_value" (.bytesAbove d.dataValue.length Limits.dataValue.toNat))

def make (accountId : AccountId) (dataName : String) (dataValue : Bytes) :
    Except WireError DataEntry :=
  checked validate ⟨accountId, dataName, dataValue⟩

/-- On the wire and in JSON, before a reserved slot. -/
def schema : Schema DataEntry :=
  ((field "account_id" AccountId.schema >> field "data_name" dataNameSchema
    >> field "data_value" dataValueSchema >> field "ext" reserved).record
    (fun (accountId, dataName, dataValue, ()) => ⟨accountId, dataName, dataValue⟩)
    fun d => (d.accountId, d.dataName, d.dataValue, ())).guarded validate

end DataEntry

/-! ### Contracts -/

/-- A value that a contract keeps under a key. -/
structure ContractDataEntry where
  contract : ScAddress
  key : ScVal
  durability : ContractDataDurability
  val : ScVal
  deriving DecidableEq, Repr

/-- On the wire and in JSON, behind a reserved slot. -/
def ContractDataEntry.schema : Schema ContractDataEntry :=
  (field "ext" reserved >> field "contract" ScAddress.schema >> field "key" ScVal.schema
    >> field "durability" ContractDataDurability.schema >> field "val" ScVal.schema).record
    (fun ((), contract, key, durability, val) => ⟨contract, key, durability, val⟩)
    fun d => ((), d.contract, d.key, d.durability, d.val)

/-- Measures of a piece of code that the price of running it depends on. -/
structure ContractCodeCostInputs where
  nInstructions : UInt32
  nFunctions : UInt32
  nGlobals : UInt32
  nTableEntries : UInt32
  nTypes : UInt32
  nDataSegments : UInt32
  nElemSegments : UInt32
  nImports : UInt32
  nExports : UInt32
  nDataSegmentBytes : UInt32
  deriving DecidableEq, Repr

/-- On the wire and in JSON, behind a reserved slot. -/
def ContractCodeCostInputs.schema : Schema ContractCodeCostInputs :=
  (field "ext" reserved >> field "n_instructions" .u32 >> field "n_functions" .u32
    >> field "n_globals" .u32 >> field "n_table_entries" .u32 >> field "n_types" .u32
    >> field "n_data_segments" .u32 >> field "n_elem_segments" .u32 >> field "n_imports" .u32
    >> field "n_exports" .u32 >> field "n_data_segment_bytes" .u32).record
    (fun ((), nInstructions, nFunctions, nGlobals, nTableEntries, nTypes, nDataSegments,
      nElemSegments, nImports, nExports, nDataSegmentBytes) =>
      ⟨nInstructions, nFunctions, nGlobals, nTableEntries, nTypes, nDataSegments,
        nElemSegments, nImports, nExports, nDataSegmentBytes⟩)
    fun c => ((), c.nInstructions, c.nFunctions, c.nGlobals, c.nTableEntries, c.nTypes,
      c.nDataSegments, c.nElemSegments, c.nImports, c.nExports, c.nDataSegmentBytes)

structure ContractCodeEntryV1 where
  costInputs : ContractCodeCostInputs
  deriving DecidableEq, Repr

/-- On the wire and in JSON, behind a reserved slot. -/
def ContractCodeEntryV1.schema : Schema ContractCodeEntryV1 :=
  (field "ext" reserved >> field "cost_inputs" ContractCodeCostInputs.schema).record
    (fun ((), costInputs) => ⟨costInputs⟩) fun x => ((), x.costInputs)

/-- A piece of contract code, found by its hash. -/
structure ContractCodeEntry where
  ext : Option ContractCodeEntryV1
  hash : Hash
  code : Bytes
  deriving DecidableEq, Repr

/-- On the wire and in JSON; the extension stands first. -/
def ContractCodeEntry.schema : Schema ContractCodeEntry :=
  (field "ext" (.extension 1 "ContractCodeEntry.ext" ContractCodeEntryV1.schema)
    >> field "hash" Hash.schema
    >> field "code" (.bytes Limits.unbounded "ContractCodeEntry.code" "code")).record
    (fun (ext, hash, code) => ⟨ext, hash, code⟩) fun c => (c.ext, c.hash, c.code)

/-- Until which ledger the object lives whose key has the hash. -/
structure TtlEntry where
  keyHash : Hash
  liveUntilLedgerSeq : UInt32
  deriving DecidableEq, Repr

def TtlEntry.schema : Schema TtlEntry :=
  (field "key_hash" Hash.schema >> field "live_until_ledger_seq" .u32).record
    (fun (keyHash, liveUntilLedgerSeq) => ⟨keyHash, liveUntilLedgerSeq⟩)
    fun t => (t.keyHash, t.liveUntilLedgerSeq)

end LedgerWire
