/-
# Changing an account's settings

An operation that may set any of nine fields and leaves the others as they are. It is put together
field by field; each setter judges the whole operation, so what it gives back obeys the rules.

* `SetOptionsOp` — the operation; `validate` judges each field that is given.
* `SetOptionsOp.withClearFlags` and the other setters — one step each.
* `SetOptionsOp.Setting` — the steps as data, and `apply` for a step of any kind.
-/

import LedgerWire.Entry.Account
import LedgerWire.Operation.Rules

namespace LedgerWire

open Schema

/-- Changes settings of an account. An empty home domain clears it, and a signer of weight 0 is
taken away. -/
structure SetOptionsOp where
  inflationDest : Option AccountId := none
  clearFlags : Option UInt32 := none
  setFlags : Option UInt32 := none
  masterWeight : Option UInt32 := none
  lowThreshold : Option UInt32 := none
  medThreshold : Option UInt32 := none
  highThreshold : Option UInt32 := none
  homeDomain : Option String := none
  signer : Option Signer := none
  deriving DecidableEq, Repr

namespace SetOptionsOp

/-- The operation that changes nothing. -/
def empty : SetOptionsOp := {}

/-- A home domain has at most 32 bytes. -/
def checkHomeDomain (homeDomain : String) : Except WireError Unit :=
  if Limits.homeDomain.toNat < homeDomain.utf8ByteSize then
    .error (.validation "home_domain"
      (.bytesOver homeDomain.utf8ByteSize Limits.homeDomain.toNat))
  else .ok ()

/-- Every field that is given obeys its rule: first the flags, then the weights, the home domain
and the signer. -/
def validate (op : SetOptionsOp) : Except WireError Unit := do
  whenPresent (checkFlags Limits.accountFlags "clear_flags") op.clearFlags
  whenPresent (checkFlags Limits.accountFlags "set_flags") op.setFlags
  whenPresent (checkWeight "master_weight") op.masterWeight
  whenPresent (checkWeight "low_threshold") op.lowThreshold
  whenPresent (checkWeight "med_threshold") op.medThreshold
  whenPresent (checkWeight "high_threshold") op.highThreshold
  whenPresent checkHomeDomain op.homeDomain
  whenPresent Signer.validate op.signer

/-! ### Setters -/

/-- Sets where inflation goes; there is no rule for it. -/
def withInflationDest (op : SetOptionsOp) (account : AccountId) : SetOptionsOp :=
  { op with inflationDest := some account }

def withClearFlags (op : SetOptionsOp) (flags : UInt32) : Except WireError SetOptionsOp :=
  checked validate { op with clearFlags := some flags }

def withSetFlags (op : SetOptionsOp) (flags : UInt32) : Except WireError SetOptionsOp :=
  checked validate { op with setFlags := some flags }

def withMasterWeight (op : SetOptionsOp) (weight : UInt32) : Except WireError SetOptionsOp :=
  checked validate { op with masterWeight := some weight }

def withThresholds (op : SetOptionsOp) (low med high : UInt32) : Except WireError SetOptionsOp :=
  checked validate
    { op with lowThreshold := some low, medThreshold := some med, highThreshold := some high }

def withHomeDomain (op : SetOptionsOp) (homeDomain : String) : Except WireError SetOptionsOp :=
  checked validate { op with homeDomain := some homeDomain }

def withSigner (op : SetOptionsOp) (signer : Signer) : Except WireError SetOptionsOp :=
  checked validate { op with signer := some signer }

/-- One step of putting the operation together. -/
inductive Setting where
  | inflationDest (account : AccountId)
  | clearFlags (flags : UInt32)
  | setFlags (flags : UInt32)
  | masterWeight (weight : UInt32)
  | thresholds (low med high : UInt32)
  | homeDomain (homeDomain : String)
  | signer (signer : Signer)
  deriving DecidableEq, Repr

def apply (op : SetOptionsOp) : Setting → Except WireError SetOptionsOp
  | .inflationDest account => .ok (op.withInflationDest account)
  | .clearFlags flags => op.withClearFlags flags
  | .setFlags flags => op.withSetFlags flags
  | .masterWeight weight => op.withMasterWeight weight
  | .thresholds low med high => op.withThresholds low med high
  | .homeDomain homeDomain => op.withHomeDomain homeDomain
  | .signer signer => op.withSigner signer

/-! ### Wire form -/

def schema : Schema SetOptionsOp :=
  ((field "inflation_dest" (.optional AccountId.schema) >> field "clear_flags" (.optional .u32)
    >> field "set_flags" (.optional .u32) >> field "master_weight" (.optional .u32)
    >> field "low_threshold" (.optional .u32) >> field "med_threshold" (.optional .u32)
    >> field "high_threshold" (.optional .u32) >> field "home_domain" (.optional homeDomainSchema)
    >> field "signer" (.optional Signer.schema)).record
    (fun (inflationDest, clearFlags, setFlags, masterWeight, lowThreshold, medThreshold,
      highThreshold, homeDomain, signer) =>
      ⟨inflationDest, clearFlags, setFlags, masterWeight, lowThreshold, medThreshold,
        highThreshold, homeDomain, signer⟩)
    fun op => (op.inflationDest, op.clearFlags, op.setFlags, op.masterWeight, op.lowThreshold,
      op.medThreshold, op.highThreshold, op.homeDomain, op.signer)).guarded validate

end SetOptionsOp

end LedgerWire
