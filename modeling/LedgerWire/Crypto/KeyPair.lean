/-
# Account key pairs

A key pair is its seed of 32 bytes: the account and every signature follow from it.

* `KeyPair.ofSecret`, `KeyPair.secret` — the seed's strkey, in both directions.
* `KeyPair.sign`, `AccountId.verify` — signatures, and their check against an account.
-/

import LedgerWire.Account
import LedgerWire.Crypto.Ed25519

namespace LedgerWire

/-- Why a key could not be used. -/
inductive KeyError where
  | invalidSecretSeed
  | invalidPublicKey
  deriving DecidableEq, Repr

/-- The sentence that reports the fault; it says nothing about why a secret was refused. -/
def KeyError.message : KeyError → String
  | .invalidSecretSeed => "invalid secret seed"
  | .invalidPublicKey => "invalid public key bytes: not a valid Ed25519 point"

structure KeyPair where
  seed : Vector UInt8 32
  deriving DecidableEq

namespace KeyPair

def ofSecret (s : String) : Except KeyError KeyPair :=
  match Strkey.decodeFixed 32 .secretSeed s with
  | .ok seed => .ok ⟨seed⟩
  | .error _ => .error .invalidSecretSeed

def secret (k : KeyPair) : String := Strkey.encode .secretSeed k.seed.toList

def accountId (k : KeyPair) : AccountId :=
  ⟨(Bytes.fixed? 32 (Ed25519.publicKey k.seed.toList)).getD (Vector.replicate 32 0)⟩

def sign (k : KeyPair) (message : Bytes) : Bytes := Ed25519.sign k.seed.toList message

end KeyPair

def AccountId.verify (a : AccountId) (message signature : Bytes) : Except KeyError Bool :=
  match Ed25519.verify a.toList message signature with
  | some verdict => .ok verdict
  | none => .error .invalidPublicKey

end LedgerWire
