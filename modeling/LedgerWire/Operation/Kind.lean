/-
# Kinds of operations

The kinds that the format has numbers for, and the weight of signatures that each needs. Two kinds
are retired: their numbers are still known, but there are no such operations any more.

* `OperationType` — the kinds; `isRetired` tells the retired ones from the others.
* `OperationType.threshold` — which threshold of the source account the kind must meet.
-/

import LedgerWire.Schema.Union

namespace LedgerWire

/-- The thresholds of an account, from the lowest to the highest. -/
inductive ThresholdLevel where
  | low
  | medium
  | high
  deriving DecidableEq, Repr

namespace ThresholdLevel

def table : List (String × Int32 × ThresholdLevel) :=
  [("low", 0, .low), ("medium", 1, .medium), ("high", 2, .high)]

/-- The levels as an enumeration; they are never on the wire. -/
def enumeration : Enumeration ThresholdLevel := .ofTable "ThresholdLevel" table

def name (t : ThresholdLevel) : String := enumeration.name t

/-- Levels are ordered by their height. -/
instance : Ord ThresholdLevel where
  compare a b := compare (enumeration.number a).toInt (enumeration.number b).toInt

end ThresholdLevel

inductive OperationType where
  | createAccount
  | payment
  | pathPaymentStrictReceive
  | manageSellOffer
  | createPassiveSellOffer
  | setOptions
  | changeTrust
  | allowTrust
  | accountMerge
  | inflation
  | manageData
  | bumpSequence
  | manageBuyOffer
  | pathPaymentStrictSend
  | createClaimableBalance
  | claimClaimableBalance
  | beginSponsoringFutureReserves
  | endSponsoringFutureReserves
  | revokeSponsorship
  | clawback
  | clawbackClaimableBalance
  | setTrustLineFlags
  | liquidityPoolDeposit
  | liquidityPoolWithdraw
  | invokeHostFunction
  | extendFootprintTtl
  | restoreFootprint
  deriving DecidableEq, Repr

namespace OperationType

def table : List (String × Int32 × OperationType) :=
  [ ("CreateAccount", 0, .createAccount), ("Payment", 1, .payment),
    ("PathPaymentStrictReceive", 2, .pathPaymentStrictReceive),
    ("ManageSellOffer", 3, .manageSellOffer),
    ("CreatePassiveSellOffer", 4, .createPassiveSellOffer), ("SetOptions", 5, .setOptions),
    ("ChangeTrust", 6, .changeTrust), ("AllowTrust", 7, .allowTrust),
    ("AccountMerge", 8, .accountMerge), ("Inflation", 9, .inflation),
    ("ManageData", 10, .manageData), ("BumpSequence", 11, .bumpSequence),
    ("ManageBuyOffer", 12, .manageBuyOffer),
    ("PathPaymentStrictSend", 13, .pathPaymentStrictSend),
    ("CreateClaimableBalance", 14, .createClaimableBalance),
    ("ClaimClaimableBalance", 15, .claimClaimableBalance),
    ("BeginSponsoringFutureReserves", 16, .beginSponsoringFutureReserves),
    ("EndSponsoringFutureReserves", 17, .endSponsoringFutureReserves),
    ("RevokeSponsorship", 18, .revokeSponsorship), ("Clawback", 19, .clawback),
    ("ClawbackClaimableBalance", 20, .clawbackClaimableBalance),
    ("SetTrustLineFlags", 21, .setTrustLineFlags),
    ("LiquidityPoolDeposit", 22, .liquidityPoolDeposit),
    ("LiquidityPoolWithdraw", 23, .liquidityPoolWithdraw),
    ("InvokeHostFunction", 24, .invokeHostFunction),
    ("ExtendFootprintTtl", 25, .extendFootprintTtl),
    ("RestoreFootprint", 26, .restoreFootprint) ]

def enumeration : Enumeration OperationType := .ofTable "OperationType" table

def schema : Schema OperationType := enumeration.schema

def number (k : OperationType) : Int32 := enumeration.number k

/-- Kinds are ordered by their numbers. -/
instance : Ord OperationType where
  compare a b := compare a.number.toInt b.number.toInt

def isRetired (k : OperationType) : Bool := k matches .allowTrust | .inflation

/-- Which threshold of the source account operations of the kind must meet. -/
def threshold : OperationType → ThresholdLevel
  | .allowTrust | .bumpSequence | .setTrustLineFlags | .claimClaimableBalance
  | .extendFootprintTtl | .restoreFootprint | .inflation => .low
  | .accountMerge | .setOptions => .high
  | _ => .medium

end OperationType

end LedgerWire
