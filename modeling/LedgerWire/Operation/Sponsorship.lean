/-
# Sponsorship

An account can pay the reserve of what another account creates, and later pass the payment on or
end it, entry by entry.

* `BeginSponsoringFutureReservesOp`, `RevokeSponsorshipOp` — the operations.
-/

import LedgerWire.Entry.Key
import LedgerWire.Signer

namespace LedgerWire

open Schema

/-- Starts paying for what the account creates from now on. -/
structure BeginSponsoringFutureReservesOp where
  sponsoredId : AccountId
  deriving DecidableEq, Repr

def BeginSponsoringFutureReservesOp.schema : Schema BeginSponsoringFutureReservesOp :=
  (field "sponsored_id" AccountId.schema).record (⟨·⟩) (·.sponsoredId)

/-- Passes on or ends the payment for an entry, or for a signer of an account. -/
inductive RevokeSponsorshipOp where
  | ledgerEntry (key : LedgerKey)
  | signer (accountId : AccountId) (key : SignerKey)
  deriving DecidableEq, Repr

namespace RevokeSponsorshipOp

/-- The name of a data entry obeys its rule, and so does the key of a signer. -/
def validate : RevokeSponsorshipOp → Except WireError Unit
  | .ledgerEntry (.data _ dataName) => checkDataName dataName
  | .ledgerEntry _ => .ok ()
  | .signer _ key => key.validate

def schema : Schema RevokeSponsorshipOp :=
  .guarded validate <| .union "RevokeSponsorshipType"
    [ .of 0 "ledger_entry" LedgerKey.schema .ledgerEntry fun
        | .ledgerEntry key => some key
        | _ => none,
      .of 1 "signer"
        (field "account_id" AccountId.schema >> field "signer_key" SignerKey.schema).inArm
        (fun (accountId, key) => .signer accountId key) fun
        | .signer accountId key => some (accountId, key)
        | _ => none ]

end RevokeSponsorshipOp

end LedgerWire
