/-
# Networks

A ledger network is known by its passphrase. Its id, the hash of the passphrase, goes into every
hash that must not be valid on another network.

* `Network.ofText` — a well-known name in any case, or a passphrase.
* `Network.id` — the hash of the passphrase.
-/

import LedgerWire.Crypto.Hash

namespace LedgerWire

/-- A network; the three public ones have names. -/
inductive Network where
  | mainnet
  | testnet
  | futurenet
  | custom (passphrase : String)
  deriving DecidableEq, Repr

namespace Network

def passphrase : Network → String
  | .mainnet => "Public Global Stellar Network ; September 2015"
  | .testnet => "Test SDF Network ; September 2015"
  | .futurenet => "Test SDF Future Network ; October 2022"
  | .custom passphrase => passphrase

/-- The hash of the passphrase. -/
def id (n : Network) : Hash := sha256 (Bytes.ofString n.passphrase)

/-- The network's name, or its passphrase between parentheses. -/
def text : Network → String
  | .mainnet => "public"
  | .testnet => "testnet"
  | .futurenet => "futurenet"
  | .custom passphrase => "custom(" ++ passphrase ++ ")"

/-- The network of a name, whose case does not matter; any other text is a passphrase. The names are
spelled in ASCII letters, which no other letter turns into in lower case. -/
def ofText (s : String) : Network :=
  match String.ofList (s.toList.map Char.toLower) with
  | "public" | "mainnet" | "pubnet" => .mainnet
  | "testnet" => .testnet
  | "futurenet" => .futurenet
  | _ => .custom s

end Network

end LedgerWire
