/-
# Operations on contracts

A request to the contract host with the authorizations it needs, and the upkeep of the objects that
contracts use. The objects are named elsewhere, by the footprint of the transaction.

* `InvokeHostFunctionOp`, `ExtendFootprintTtlOp`, `RestoreFootprintOp` — the operations.
-/

import LedgerWire.Contract.Authorization

namespace LedgerWire

open Schema

/-- Asks the host for something, with one authorization for each party that must approve. -/
structure InvokeHostFunctionOp where
  hostFunction : HostFunction
  auth : List SorobanAuthorizationEntry := []
  deriving DecidableEq, Repr

def InvokeHostFunctionOp.schema : Schema InvokeHostFunctionOp :=
  (field "host_function" HostFunction.schema
    >> field "auth" (.array Limits.unbounded "InvokeHostFunctionOp.auth" "auth"
        SorobanAuthorizationEntry.schema)).record
    (fun (hostFunction, auth) => ⟨hostFunction, auth⟩) fun op => (op.hostFunction, op.auth)

/-- Keeps the objects that are only read for at least so many ledgers. -/
structure ExtendFootprintTtlOp where
  extendTo : UInt32
  deriving DecidableEq, Repr

namespace ExtendFootprintTtlOp

def validate (op : ExtendFootprintTtlOp) : Except WireError Unit :=
  if op.extendTo = 0 then .error (.validation "extend_to" .noLedgers) else .ok ()

/-- On the wire and in JSON, behind a reserved slot. -/
def schema : Schema ExtendFootprintTtlOp :=
  ((field "ext" reserved >> field "extend_to" .u32).record (fun ((), extendTo) => ⟨extendTo⟩)
    fun op => ((), op.extendTo)).guarded validate

end ExtendFootprintTtlOp

/-- Brings back the archived objects that are written. -/
structure RestoreFootprintOp where
  deriving DecidableEq, Repr

/-- On the wire and in JSON nothing but a reserved slot. -/
def RestoreFootprintOp.schema : Schema RestoreFootprintOp :=
  (field "ext" reserved).record (fun () => ⟨⟩) fun _ => ()

end LedgerWire
