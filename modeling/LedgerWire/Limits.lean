/-
# Bounds of the ledger format

The numbers that bound names, lists and payloads, the flags that are in use, and the discriminants
that separate the purposes for which structures are hashed.
-/

namespace LedgerWire.Limits

/-- The bound of lists and byte strings that have no bound of their own. -/
def unbounded : UInt32 := 4294967295

/-- Assets on the way of a path payment. -/
def path : UInt32 := 5

/-- Bytes of the name of a data entry. -/
def dataName : UInt32 := 64

/-- Bytes of the value of a data entry. -/
def dataValue : UInt32 := 64

/-- Bytes of an account's home domain. -/
def homeDomain : UInt32 := 32

/-- The weight of a signer, and an account's thresholds. -/
def signerWeight : UInt32 := 255

/-- Signers of an account. -/
def signers : UInt32 := 20

/-- Claimants of a claimable balance. -/
def claimants : UInt32 := 10

/-- Bytes of a payload that a signer is bound to. -/
def signedPayload : UInt32 := 64

/-- Bytes of a contract symbol. -/
def symbol : UInt32 := 32

/-- Entries of a table of cost parameters. -/
def costParameters : UInt32 := 1024

/-- The fee of a constant-product pool in basis points, unless another is asked for. -/
def poolFee : Int32 := 30

/-- Pool fees stay below this many basis points. -/
def poolFeeEnd : Int32 := 10000

def accountFlags : UInt32 := 0xF

def trustLineFlags : UInt32 := 0x7

/-- What the preimage of a contract id starts with. -/
def contractIdEnvelope : Int32 := 8

/-- What the preimage of an authorization starts with. -/
def authorizationEnvelope : Int32 := 9

end LedgerWire.Limits
