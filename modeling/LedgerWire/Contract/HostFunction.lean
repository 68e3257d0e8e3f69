/-
# Host functions

What an operation asks the contract host to do: call a contract, create one, or upload code. The id
of a new contract is never chosen; it is the hash of a preimage that binds the network to a
deployer's address and a salt, or to an asset.

* `ContractIdPreimage` — what a contract id is derived from.
* `ContractIdPreimage.contractId` — the id that it gives on a network.
* `HostFunction` — the requests.
-/

import LedgerWire.Asset.Basic
import LedgerWire.Contract.Value
import LedgerWire.Network

namespace LedgerWire

open Schema

/-! ### Contract ids -/

/-- A deployer and the salt that tells its contracts apart. -/
structure ContractIdAddressPreimage where
  address : ScAddress
  salt : Vector UInt8 32
  deriving DecidableEq, Repr

namespace ContractIdAddressPreimage

/-- On the wire and in JSON, the salt in hexadecimal digits. -/
def schema : Schema ContractIdAddressPreimage :=
  (field "address" ScAddress.schema >> field "salt" (.fixed 32)).record
    (fun (address, salt) => ⟨address, salt⟩) fun p => (p.address, p.salt)

/-- A deployer whose salt is the start of the endless repetition of some bytes. -/
def ofCycle (address : ScAddress) (bytes : Bytes) : ContractIdAddressPreimage :=
  ⟨address, Vector.ofFn fun i => bytes.getD (i % bytes.length) 0⟩

end ContractIdAddressPreimage

/-- What a contract id is derived from. -/
inductive ContractIdPreimage where
  | fromAddress (preimage : ContractIdAddressPreimage)
  | fromAsset (asset : Asset)
  deriving DecidableEq, Repr

namespace ContractIdPreimage

/-- The preimage of the contract built in for a valid asset. -/
def ofAsset (asset : Asset) : Except WireError ContractIdPreimage := do
  asset.validate
  return .fromAsset asset

def schema : Schema ContractIdPreimage :=
  .union "ContractIdPreimageType"
    [ .of 0 "from_address" ContractIdAddressPreimage.schema .fromAddress fun
        | .fromAddress p => some p
        | _ => none,
      .of 1 "from_asset" Asset.schema .fromAsset fun
        | .fromAsset a => some a
        | _ => none ]

/-- What a contract id is the hash of: its purpose, the network's id, and the preimage. -/
def hashInput (p : ContractIdPreimage) (networkId : Hash) : Except WireError Bytes :=
  (Codec.i32.both (Hash.wire.both schema.wire)).encode (Limits.contractIdEnvelope, networkId, p)

/-- The id of the contract on a network. -/
def contractId (p : ContractIdPreimage) (network : Network) : Except WireError ContractId :=
  (p.hashInput network.id).map fun bytes => ⟨sha256 bytes⟩

end ContractIdPreimage

/-! ### Arguments -/

/-- A call of one function of a contract. -/
structure InvokeContractArgs where
  contractAddress : ScAddress
  functionName : String
  args : List ScVal
  deriving DecidableEq, Repr

namespace InvokeContractArgs

def make (contractAddress : ScAddress) (functionName : String) (args : List ScVal) :
    Except WireError InvokeContractArgs := do
  checkSymbol functionName
  return ⟨contractAddress, functionName, args⟩

def schema : Schema InvokeContractArgs :=
  (field "contract_address" ScAddress.schema >> field "function_name" symbolSchema
    >> field "args" (.array Limits.unbounded "InvokeContractArgs.args" "args" ScVal.schema)).record
    (fun (contractAddress, functionName, args) => ⟨contractAddress, functionName, args⟩)
    fun a => (a.contractAddress, a.functionName, a.args)

end InvokeContractArgs

structure CreateContractArgs where
  contractIdPreimage : ContractIdPreimage
  executable : ContractExecutable
  deriving DecidableEq, Repr

def CreateContractArgs.schema : Schema CreateContractArgs :=
  (field "contract_id_preimage" ContractIdPreimage.schema
    >> field "executable" ContractExecutable.schema).record
    (fun (contractIdPreimage, executable) => ⟨contractIdPreimage, executable⟩)
    fun a => (a.contractIdPreimage, a.executable)

/-- The creation of a contract whose constructor takes arguments. -/
structure CreateContractArgsV2 where
  contractIdPreimage : ContractIdPreimage
  executable : ContractExecutable
  constructorArgs : List ScVal
  deriving DecidableEq, Repr

def CreateContractArgsV2.schema : Schema CreateContractArgsV2 :=
  (field "contract_id_preimage" ContractIdPreimage.schema
    >> field "executable" ContractExecutable.schema
    >> field "constructor_args" (.array Limits.unbounded "CreateContractArgsV2.constructorArgs"
        "constructor_args" ScVal.schema)).record
    (fun (contractIdPreimage, executable, constructorArgs) =>
      ⟨contractIdPreimage, executable, constructorArgs⟩)
    fun a => (a.contractIdPreimage, a.executable, a.constructorArgs)

/-! ### Requests -/

/-- What the host is asked to do. -/
inductive HostFunction where
  | invokeContract (args : InvokeContractArgs)
  | createContract (args : CreateContractArgs)
  | uploadContractWasm (code : Bytes)
  | createContractV2 (args : CreateContractArgsV2)
  deriving DecidableEq, Repr

namespace HostFunction

/-- The hash under which uploaded code will be stored. -/
def wasmHash? : HostFunction → Option Hash
  | .uploadContractWasm code => some (sha256 code)
  | _ => none

def schema : Schema HostFunction :=
  .union "HostFunctionType"
    [ .of 0 "invoke_contract" InvokeContractArgs.schema .invokeContract fun
        | .invokeContract a => some a
        | _ => none,
      .of 1 "create_contract" CreateContractArgs.schema .createContract fun
        | .createContract a => some a
        | _ => none,
      .of 2 "upload_contract_wasm" (.bytes Limits.unbounded "HostFunction.wasm" "wasm")
        .uploadContractWasm fun
        | .uploadContractWasm code => some code
        | _ => none,
      .of 3 "create_contract_v2" CreateContractArgsV2.schema .createContractV2 fun
        | .createContractV2 a => some a
        | _ => none ]

end HostFunction

end LedgerWire
