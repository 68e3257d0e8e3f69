/-
# Contracts and the addresses they see

A contract is named by a hash. An address, as contracts use it, is an account or a contract.

* `ContractId`, `ScAddress` — the names.
* `ContractId.text`, `ScAddress.text` and their `ofText` — the strkey forms: the first letter tells
  a contract from an account.
-/

import LedgerWire.Account
import LedgerWire.Crypto.Hash

namespace LedgerWire

/-- A deployed contract, named by the hash of what it was derived from. -/
structure ContractId where
  hash : Hash
  deriving DecidableEq, Repr

namespace ContractId

/-- Contracts are ordered by their hashes. -/
instance : Ord ContractId where
  compare a b := compare a.hash b.hash

def text (c : ContractId) : String := Strkey.encode .contract c.hash.toList

def ofText (s : String) : Except Strkey.Fault ContractId :=
  (Strkey.decodeFixed 32 .contract s).map fun bytes => ⟨⟨bytes⟩⟩

/-- On the wire the hash alone. -/
def wire : Codec ContractId := Hash.wire.imap mk hash

def schema : Schema ContractId := .shownAs text ofText Strkey.Fault.message wire

end ContractId

/-- Who a contract talks to: an account or another contract. -/
inductive ScAddress where
  | account (id : AccountId)
  | contract (id : ContractId)
  deriving DecidableEq, Repr

namespace ScAddress

def text : ScAddress → String
  | .account id => id.text
  | .contract id => id.text

def ofText (s : String) : Except Strkey.Fault ScAddress := do
  if s.toList.head? = some Strkey.Version.contract.letter then
    return .contract (← ContractId.ofText s)
  else
    return .account (← AccountId.ofText s)

/-- On the wire an account keeps the discriminant of its own. -/
def wire : Codec ScAddress :=
  .union "ScAddressType"
    [ .of 0 AccountId.wire .account fun
        | .account id => some id
        | _ => none,
      .of 1 ContractId.wire .contract fun
        | .contract id => some id
        | _ => none ]

def schema : Schema ScAddress := .shownAs text ofText Strkey.Fault.message wire

end ScAddress

end LedgerWire
