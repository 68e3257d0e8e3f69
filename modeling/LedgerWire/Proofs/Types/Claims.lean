/-
# Claim predicates are regular

A predicate contains predicates, so it is read one level further in, and its nesting counts.

* `ClaimPredicate.pairView`, `ClaimPredicate.childView` — two conditions stand behind the number
  two and nothing else, and a single one behind its flag.
* `ClaimPredicate.regular` — the nesting of a predicate is what reading counts.
-/

import LedgerWire.Proofs.Schema.Recursion
import LedgerWire.Proofs.Types.Names

namespace LedgerWire

open Codec (Regular View deepest unchecked)
open Get (Agree)

namespace ClaimPredicate

variable {k : Nat} {self : Schema ClaimPredicate}

/-- A predicate alone is one level. -/
theorem nesting_pos (p : ClaimPredicate) : 0 < p.nesting := by
  cases p <;> simp [nesting]

/-! ### The parts of a predicate -/

/-- The count in front of two children is two, and no other is accepted. -/
theorem pairView : View
    (fun n : UInt32 =>
      if n = 2 then .ok () else .error (.malformed "ClaimPredicate" (.childCount n.toNat)))
    (fun () => 2) unchecked where
  toWire_of_ofWire h := by
    split at h
    · rename_i hn
      exact hn.symm
    · cases h
  ofWire_toWire _ := rfl
  judges _ := judges_ok
  isRefusal h := by
    split at h
    · cases h
    · cases h
      trivial

/-- The child of a negation is there, though its place is an optional one. -/
theorem childView : View
    (fun
      | some p => .ok p
      | none => .error (.malformed "ClaimPredicate" .missingChild) :
      Option ClaimPredicate → Except WireError ClaimPredicate)
    some unchecked where
  toWire_of_ofWire h := by
    split at h
    · cases h
      rfl
    · cases h
  ofWire_toWire _ := rfl
  judges _ := judges_ok
  isRefusal h := by
    split at h
    · cases h
    · cases h
      trivial

/-- Two children are as deep as the deeper of them. -/
theorem regular_pair (h : Regular k self.wire nesting) :
    Regular k (pair self).wire fun x => max x.1.nesting x.2.nesting :=
  .imap rfl rfl (.behind (.convert pairView Codec.flat_u32) (h.both h))

/-- The child of a negation is as deep as it is. -/
theorem regular_child (h : Regular k self.wire nesting) : Regular k (child self).wire nesting :=
  .convert childView h.optional

/-- **One level of predicates is regular** if the level below is. -/
theorem regular_layout (h : Regular k self.wire nesting) :
    Regular k (layout self).wire fun p => p.nesting - 1 := by
  refine .union_of_parts (fun a => by cases a <;> rfl) rfl ?_
  exact .bare rfl rfl <| .of rfl (regular_pair h) <| .of rfl (regular_pair h) <|
    .of rfl (regular_child h) <| .of rfl .i64 <| .of rfl .i64 .nil

/-! ### One level and the whole -/

/-- Two children are written alike by writings that agree on each. -/
theorem put_pair {self self' : Schema ClaimPredicate} {left right : ClaimPredicate}
    (hleft : self.wire.put left = self'.wire.put left)
    (hright : self.wire.put right = self'.wire.put right) :
    (pair self).wire.put (left, right) = (pair self').wire.put (left, right) := by
  show (do Put.u32 2; self.wire.put left; self.wire.put right) = _
  rw [hleft, hright]
  rfl

/-- Two children are read alike by readings that agree on one. -/
theorem agree_pair {room : Nat} {self self' : Schema ClaimPredicate}
    (h : Agree room self.wire.get self'.wire.get) :
    Agree room (pair self).wire.get (pair self').wire.get := by
  have hcount : (Codec.u32.convert
      (fun n =>
        if n = 2 then .ok () else .error (.malformed "ClaimPredicate" (.childCount n.toNat)))
      fun () => 2).Flat := .convert pairView Codec.flat_u32
  exact Codec.agree_imap (Codec.agree_both hcount.agree (Codec.agree_both h h))

/-- **The layout of predicates is local**: a level looks at less nested predicates only. -/
theorem local_layout : Schema.Local nesting layout where
  own_pos := nesting_pos
  put_congr {self self' p} h := by
    cases p with
    | and left right =>
        have hpair := put_pair (h left (by rw [nesting]; omega)) (h right (by rw [nesting]; omega))
        exact congrArg (Put.i32 1 >>= fun _ => ·) hpair
    | or left right =>
        have hpair := put_pair (h left (by rw [nesting]; omega)) (h right (by rw [nesting]; omega))
        exact congrArg (Put.i32 2 >>= fun _ => ·) hpair
    | not inner =>
        have hinner := h inner (by simp [nesting])
        exact congrArg (fun m => (do Put.i32 3; Put.bool true; m : Put)) hinner
    -- The other conditions have no parts.
    | _ => rfl
  get_congr {self self' room} h := by
    have hchild : Agree room (child self).wire.get (child self').wire.get :=
      Codec.agree_convert h.optional
    refine Schema.agree_union ?_
    exact .bare <| .of (agree_pair h) <| .of (agree_pair h) <| .of hchild <|
      .of Codec.flat_i64.agree <| .of Codec.flat_i64.agree .nil

/-- **The nesting of a predicate is what reading counts.** -/
theorem regular (k : Nat) : Regular k schema.wire nesting :=
  Schema.regular_recursive local_layout nesting_pos (fun _ h => regular_layout h) k

end ClaimPredicate

/-! ### Claimants -/

namespace Claimant

def nesting (c : Claimant) : Nat := c.predicate.nesting

theorem regular (k : Nat) : Regular k schema.wire nesting :=
  .single <| .imap rfl rfl <| .behind AccountId.flat (ClaimPredicate.regular k)

theorem hungry : schema.wire.get.Hungry := Get.hungry_i32.bind _

end Claimant

end LedgerWire
