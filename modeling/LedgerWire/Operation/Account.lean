/-
# Operations on accounts

An account is created with a balance, keeps named values, and can skip sequence numbers.

* `CreateAccountOp`, `ManageDataOp`, `BumpSequenceOp` — the operations, with their rules.
-/

import LedgerWire.Entry.Data
import LedgerWire.Operation.Rules

namespace LedgerWire

open Schema

/-- Creates an account. Its balance may be zero when its reserve is sponsored. -/
structure CreateAccountOp where
  destination : AccountId
  startingBalance : Amount
  deriving DecidableEq, Repr

namespace CreateAccountOp

def validate (op : CreateAccountOp) : Except WireError Unit :=
  op.startingBalance.requireNonNegative "starting_balance"

def schema : Schema CreateAccountOp :=
  ((field "destination" AccountId.schema >> field "starting_balance" Amount.schema).record
    (fun (destination, startingBalance) => ⟨destination, startingBalance⟩)
    fun op => (op.destination, op.startingBalance)).guarded validate

end CreateAccountOp

/-- Sets a named value of the account, or takes it away when no value is given. -/
structure ManageDataOp where
  dataName : String
  dataValue : Option Bytes
  deriving DecidableEq, Repr

namespace ManageDataOp

/-- The name obeys its rule, and a value has at most 64 bytes. -/
def validate (op : ManageDataOp) : Except WireError Unit := do
  checkDataName op.dataName
  whenPresent
    (fun value =>
      if Limits.dataValue.toNat < value.length then
        .error (.validation "data_value" (.bytesOver value.length Limits.dataValue.toNat))
      else .ok ())
    op.dataValue

/-- On the wire and in JSON, where a value that is not given is left out. -/
def schema : Schema ManageDataOp :=
  ((field "data_name" dataNameSchema >> omittedField "data_value" dataValueSchema).record
    (fun (dataName, dataValue) => ⟨dataName, dataValue⟩)
    fun op => (op.dataName, op.dataValue)).guarded validate

end ManageDataOp

/-- Moves the account's sequence number forward. -/
structure BumpSequenceOp where
  bumpTo : Int64
  deriving DecidableEq, Repr

namespace BumpSequenceOp

def validate (op : BumpSequenceOp) : Except WireError Unit :=
  checkNotNegative "bump_to" op.bumpTo

def schema : Schema BumpSequenceOp :=
  ((field "bump_to" .i64).record (⟨·⟩) (·.bumpTo)).guarded validate

end BumpSequenceOp

end LedgerWire
