/-
# Amounts

A quantity of an asset is a signed count of stroops, ten million to the unit. Texts are decimal:
reading is exact and takes at most seven digits after the point, writing always gives seven.

* `Amount.ofText`, `Amount.text` — the two directions.
* `Amount.requirePositive`, `Amount.requireNonNegative` — the rules that amounts are put under.
-/

import LedgerWire.Schema.Basic
import LedgerWire.Text.Decimal

namespace LedgerWire

/-- A quantity of some asset, counted in stroops. -/
structure Amount where
  stroops : Int64
  deriving DecidableEq, Repr

namespace Amount

/-- How many digits after the point a stroop takes. -/
def decimals : Nat := 7

def zero : Amount := ⟨0⟩

def max : Amount := ⟨Int64.maxValue⟩

/-- Amounts are ordered by their stroops. -/
instance : Ord Amount where
  compare a b := compare a.stroops.toInt b.stroops.toInt

def isNegative (a : Amount) : Bool := a.stroops < 0

/-! ### Texts -/

/-- The amount that a decimal text spells. -/
def ofText (s : String) : Except WireError Amount :=
  match Text.Decimal.ofText? s with
  | none => .error (.validation "amount" (.notDecimal s))
  | some d =>
      if decimals < d.fraction.length then .error (.precision (.fractionDigits s))
      else
        let n := d.scaled decimals
        if -0x8000000000000000 ≤ n ∧ n < 0x8000000000000000 then .ok ⟨Int64.ofInt n⟩
        else .error (.precision (.amountRange s))

/-- The decimal text of a count of stroops, with seven digits after the point. -/
def textOfStroops (n : Int) : String :=
  let unit := Nat.pow 10 decimals
  (if n < 0 then "-" else "") ++ toString (n.natAbs / unit) ++ "."
    ++ Text.paddedDigits decimals (n.natAbs % unit)

def text (a : Amount) : String := textOfStroops a.stroops.toInt

/-! ### Rules -/

def requirePositive (field : String) (a : Amount) : Except WireError Unit :=
  if 0 < a.stroops then .ok () else .error (.validation field (.amountNotPositive a.text))

def requireNonNegative (field : String) (a : Amount) : Except WireError Unit :=
  if 0 ≤ a.stroops then .ok () else .error (.validation field (.amountNegative a.text))

/-- On the wire a signed word of 64 bits, in JSON the decimal text. -/
def schema : Schema Amount :=
  .shownAs text ofText WireError.message (Codec.i64.imap mk stroops)

end Amount

end LedgerWire
