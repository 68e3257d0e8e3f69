/-
# Claim predicates

A claimable balance waits for a claimant whose condition holds. Conditions are trees over points
and spans of time; this module describes them and does not evaluate them.

* `ClaimPredicate` — the conditions; conjunction and disjunction join exactly two.
* `Claimant` — an account with its condition.
* `ClaimPredicate.deadline?` — the point in time of a condition that is one.
-/

import LedgerWire.Account
import LedgerWire.Limits
import LedgerWire.Schema.Record

namespace LedgerWire

/-- A condition on the time of a claim. Times are whole seconds. -/
inductive ClaimPredicate where
  | unconditional
  | and (left right : ClaimPredicate)
  | or (left right : ClaimPredicate)
  | not (inner : ClaimPredicate)
  | beforeAbsoluteTime (seconds : Int64)
  | beforeRelativeTime (seconds : Int64)
  deriving DecidableEq, Repr

namespace ClaimPredicate

open Schema

/-- The number of conditions on the longest way from the whole to a part. -/
def nesting : ClaimPredicate → Nat
  | .and left right => max left.nesting right.nesting + 1
  | .or left right => max left.nesting right.nesting + 1
  | .not inner => inner.nesting + 1
  | _ => 1

/-! ### Time -/

/-- The first and the last second that a calendar date can be given for. -/
def calendar : Int × Int := (-8334601228800, 8210266876799)

/-- The point in time of a condition that is one, if the calendar has it. -/
def deadline? : ClaimPredicate → Option Int
  | .beforeAbsoluteTime seconds =>
      if calendar.1 ≤ seconds.toInt ∧ seconds.toInt ≤ calendar.2 then some seconds.toInt else none
  | _ => none

/-- The condition that ends at an instant, given in nanoseconds since the epoch. It ends at the last
whole second that is not after the instant. -/
def beforeInstant (nanoseconds : Int) : ClaimPredicate :=
  .beforeAbsoluteTime (Int64.ofInt (nanoseconds.fdiv 1000000000))

/-! ### Wire form -/

/-- Two conditions behind their number, which can only be two. -/
def pair (self : Schema ClaimPredicate) : Schema (ClaimPredicate × ClaimPredicate) where
  wire :=
    ((Codec.u32.convert
      (fun n =>
        if n = 2 then .ok () else .error (.malformed "ClaimPredicate" (.childCount n.toNat)))
      fun () => 2).both (self.wire.both self.wire)).imap (·.2) ((), ·)
  json := self.json.two self.json

/-- A condition in a slot that could be empty, and must not be. -/
def child (self : Schema ClaimPredicate) : Schema ClaimPredicate where
  wire :=
    self.wire.optional.convert
      (fun
        | some p => .ok p
        | none => .error (.malformed "ClaimPredicate" .missingChild))
      some
  json := self.json

/-- One level of a condition, over a schema for its parts. -/
def layout (self : Schema ClaimPredicate) : Schema ClaimPredicate :=
  .union "ClaimPredicateType"
    [ .bare 0 "unconditional" .unconditional (· matches .unconditional),
      .of 1 "and" (pair self) (fun (left, right) => .and left right) fun
        | .and left right => some (left, right)
        | _ => none,
      .of 2 "or" (pair self) (fun (left, right) => .or left right) fun
        | .or left right => some (left, right)
        | _ => none,
      .of 3 "not" (child self) .not fun
        | .not inner => some inner
        | _ => none,
      .of 4 "before_absolute_time" .i64 .beforeAbsoluteTime fun
        | .beforeAbsoluteTime seconds => some seconds
        | _ => none,
      .of 5 "before_relative_time" .i64 .beforeRelativeTime fun
        | .beforeRelativeTime seconds => some seconds
        | _ => none ]

def schema : Schema ClaimPredicate := .recursive nesting layout

end ClaimPredicate

/-- An account that may claim a balance, and when. -/
structure Claimant where
  destination : AccountId
  predicate : ClaimPredicate
  deriving DecidableEq, Repr

namespace Claimant

open Schema

def schema : Schema Claimant :=
  behind "ClaimantType" 0 <|
    (field "destination" AccountId.schema >> field "predicate" ClaimPredicate.schema).record
      (fun (destination, predicate) => ⟨destination, predicate⟩)
      fun c => (c.destination, c.predicate)

end Claimant

/-- A balance has at least one claimant, and at most ten. -/
def checkClaimants (claimants : List Claimant) : Except WireError Unit :=
  if claimants.isEmpty ∨ Limits.claimants.toNat < claimants.length then
    .error (.validation "claimants"
      (.claimantsOutside claimants.length 1 Limits.claimants.toNat))
  else .ok ()

end LedgerWire
