/-
# Rules that operations share

Each operation has a `validate` that judges its fields in a fixed order and reports the first rule
that is broken. This module holds the rules that more than one kind of operation is under.
-/

import LedgerWire.Amount
import LedgerWire.Asset.Basic
import LedgerWire.Limits

namespace LedgerWire

/-- Only flags that are in use may be given. -/
def checkFlags (mask : UInt32) (field : String) (flags : UInt32) : Except WireError Unit :=
  if flags &&& ~~~mask = 0 then .ok ()
  else .error (.validation field (.unknownFlags flags.toNat))

/-- Numbers of sequences and offers are not negative. -/
def checkNotNegative (field : String) (n : Int64) : Except WireError Unit :=
  if n < 0 then .error (.validation field (.negative n.toInt)) else .ok ()

/-- The asset has an issuer, and is valid. -/
def requireCredit (field : String) (asset : Asset) : Except WireError Unit :=
  match asset with
  | .native => .error (.validation field .nativeHasNoIssuer)
  | .credit _ _ => asset.validate

/-- A path has at most five assets, and all of them are valid. -/
def checkPath (path : List Asset) : Except WireError Unit :=
  if Limits.path.toNat < path.length then
    .error (.validation "path" (.hopsAbove path.length Limits.path.toNat))
  else path.forM Asset.validate

/-- A field that may be absent obeys its rule when it is there. -/
def whenPresent {α : Type} (check : α → Except WireError Unit) : Option α → Except WireError Unit
  | none => .ok ()
  | some a => check a

end LedgerWire
