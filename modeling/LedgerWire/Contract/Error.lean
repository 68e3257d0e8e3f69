/-
# Contract errors

An error value carries a code of the contract's own, or it names the part of the host that failed
and the host's code for the failure. The host never speaks for the contract: an error of the
contract's own part has no host code.

* `ScErrorType`, `ScErrorCode` — the parts that can fail, and the host's codes.
* `ScError` — an error value.
-/

import LedgerWire.Schema.Union

namespace LedgerWire

/-- Which part raised an error. -/
inductive ScErrorType where
  | contract
  | wasmVm
  | context
  | storage
  | object
  | crypto
  | events
  | budget
  | value
  | auth
  deriving DecidableEq, Repr

namespace ScErrorType

def table : List (String × Int32 × ScErrorType) :=
  [ ("Contract", 0, .contract), ("WasmVm", 1, .wasmVm), ("Context", 2, .context),
    ("Storage", 3, .storage), ("Object", 4, .object), ("Crypto", 5, .crypto),
    ("Events", 6, .events), ("Budget", 7, .budget), ("Value", 8, .value), ("Auth", 9, .auth) ]

def enumeration : Enumeration ScErrorType := .ofTable "ScErrorType" table

def schema : Schema ScErrorType := enumeration.schema

end ScErrorType

/-- Why the host failed. -/
inductive ScErrorCode where
  | arithDomain
  | indexBounds
  | invalidInput
  | missingValue
  | existingValue
  | exceededLimit
  | invalidAction
  | internalError
  | unexpectedType
  | unexpectedSize
  deriving DecidableEq, Repr

namespace ScErrorCode

def table : List (String × Int32 × ScErrorCode) :=
  [ ("ArithDomain", 0, .arithDomain), ("IndexBounds", 1, .indexBounds),
    ("InvalidInput", 2, .invalidInput), ("MissingValue", 3, .missingValue),
    ("ExistingValue", 4, .existingValue), ("ExceededLimit", 5, .exceededLimit),
    ("InvalidAction", 6, .invalidAction), ("InternalError", 7, .internalError),
    ("UnexpectedType", 8, .unexpectedType), ("UnexpectedSize", 9, .unexpectedSize) ]

def enumeration : Enumeration ScErrorCode := .ofTable "ScErrorCode" table

def schema : Schema ScErrorCode := enumeration.schema

end ScErrorCode

/-- An error value: a code of the contract's own, or a failure of the host. -/
inductive ScError where
  | contract (code : UInt32)
  | host (type : ScErrorType) (code : ScErrorCode)
  deriving DecidableEq, Repr

namespace ScError

/-- The contract's own part has no host code. -/
def validate : ScError → Except WireError Unit
  | .host .contract _ => .error (.validation "sc_error" .hostCodeOnContract)
  | _ => .ok ()

def code? : ScError → Option UInt32
  | .contract code => some code
  | _ => none

/-- The part and the code of a failure of the host. -/
def failure? : ScError → Option (ScErrorType × ScErrorCode)
  | .host type code => some (type, code)
  | _ => none

/-- The arm of the failures of one part of the host. -/
def hostArm (type : ScErrorType) : Codec.Arm ScError :=
  .of (ScErrorType.enumeration.number type) ScErrorCode.schema.wire (.host type) fun
    | .host t code => if t = type then some code else none
    | _ => none

/-- On the wire the part selects what follows: its number is the discriminant. -/
def wire : Codec ScError :=
  (Codec.union "ScErrorType"
    (.of 0 .u32 .contract code? ::
      (ScErrorType.enumeration.all.filter (· ≠ .contract)).map hostArm)).guarded validate

def schema : Schema ScError where
  wire := wire
  json :=
    Schema.unionJson
      [ .of 0 "contract" .u32 .contract code?,
        .of 1 "host" (.two ScErrorType.schema ScErrorCode.schema)
          (fun (type, code) => .host type code) failure? ]

end ScError

end LedgerWire
