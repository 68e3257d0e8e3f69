/-
# Footprints

A contract transaction declares beforehand which objects of the ledger it will read and write, and
the resources that it pays for.

* `LedgerFootprint` — the objects, by their keys.
* `SorobanTransactionData` — the declaration.
-/

import LedgerWire.Amount
import LedgerWire.Entry.Key

namespace LedgerWire

open Schema

/-- The objects that a transaction only reads, and those that it also writes. -/
structure LedgerFootprint where
  readOnly : List LedgerKey
  readWrite : List LedgerKey
  deriving DecidableEq, Repr

namespace LedgerFootprint

def contains (f : LedgerFootprint) (key : LedgerKey) : Bool :=
  f.readOnly.contains key || f.readWrite.contains key

def schema : Schema LedgerFootprint :=
  (field "read_only" (.array Limits.unbounded "LedgerFootprint.readOnly" "read_only"
      LedgerKey.schema)
    >> field "read_write" (.array Limits.unbounded "LedgerFootprint.readWrite" "read_write"
      LedgerKey.schema)).record
    (fun (readOnly, readWrite) => ⟨readOnly, readWrite⟩) fun f => (f.readOnly, f.readWrite)

end LedgerFootprint

/-- A footprint, and bounds on the work that is done in it. -/
structure SorobanResources where
  footprint : LedgerFootprint
  instructions : UInt32
  diskReadBytes : UInt32
  writeBytes : UInt32
  deriving DecidableEq, Repr

def SorobanResources.schema : Schema SorobanResources :=
  (field "footprint" LedgerFootprint.schema >> field "instructions" .u32
    >> field "disk_read_bytes" .u32 >> field "write_bytes" .u32).record
    (fun (footprint, instructions, diskReadBytes, writeBytes) =>
      ⟨footprint, instructions, diskReadBytes, writeBytes⟩)
    fun r => (r.footprint, r.instructions, r.diskReadBytes, r.writeBytes)

/-- The archived objects that a transaction restores, by their places in the footprint. -/
structure SorobanResourcesExtV0 where
  archivedSorobanEntries : List UInt32
  deriving DecidableEq, Repr

def SorobanResourcesExtV0.schema : Schema SorobanResourcesExtV0 :=
  (field "archived_soroban_entries" (.array Limits.unbounded
    "SorobanResourcesExtV0.archivedSorobanEntries" "archived_soroban_entries" .u32)).record
    (⟨·⟩) (·.archivedSorobanEntries)

structure SorobanTransactionData where
  ext : Option SorobanResourcesExtV0
  resources : SorobanResources
  resourceFee : Amount
  deriving DecidableEq, Repr

/-- On the wire and in JSON; the extension stands first. -/
def SorobanTransactionData.schema : Schema SorobanTransactionData :=
  (field "ext" (.extension 1 "SorobanTransactionData.ext" SorobanResourcesExtV0.schema)
    >> field "resources" SorobanResources.schema >> field "resource_fee" Amount.schema).record
    (fun (ext, resources, resourceFee) => ⟨ext, resources, resourceFee⟩)
    fun d => (d.ext, d.resources, d.resourceFee)

end LedgerWire
