/-
# Readers as strict as their writers

Most rules are judged before a value is written, and not when it is read. A codec is strict if it
makes no difference: whatever is read, from any bytes and at any depth, breaks no rule of the
writer, and is written as something.

* `Codec.Strict` — what is read is written.
* `Strict.both`, `Strict.view`, `Strict.array`, … — one rule a combinator; a check is strict where
  everything that is read passes it.
* `StrictArms` — the arms of a union, one by one; `Strict.union` is their union.
* `Schema.strict_recursive` — recursive values, by induction on the levels that a reader has room
  for.
* `Regular.decode_eq_ok_iff_encode` — such a codec decodes what it encodes, and nothing else.
-/

import LedgerWire.Proofs.Schema.Recursion
import LedgerWire.Proofs.Wire.Depth
import LedgerWire.Proofs.Wire.Giving
import LedgerWire.Proofs.Wire.Whole
import LedgerWire.Proofs.Wire.Writable

namespace LedgerWire

namespace Codec

open Attempt (Gives)

variable {α β : Type} {c : Codec α} {d : Codec β}

/-- Whatever is read is written as something. -/
def Strict (c : Codec α) : Prop := ∀ a, c.get.Gives a → ∃ p, c.Writes a p

/-- A codec that writes all values. -/
theorem strict_of_writable (h : ∀ a, c.Writable a) : c.Strict := fun a _ => h a

/-! ### Single values -/

theorem strict_unit : Strict unit := strict_of_writable fun _ => writable_unit

theorem strict_u32 : Strict u32 := strict_of_writable writable_u32

theorem strict_i32 : Strict i32 := strict_of_writable writable_i32

theorem strict_u64 : Strict u64 := strict_of_writable writable_u64

theorem strict_i64 : Strict i64 := strict_of_writable writable_i64

theorem strict_bool : Strict bool := strict_of_writable writable_bool

theorem strict_fixed (n : Nat) : Strict (fixed n) := strict_of_writable writable_fixed

/-- Both directions have the same bound on the length. -/
theorem strict_bytes (max : UInt32) (kind field : String) : Strict (bytes max kind field) :=
  fun _ h => writable_bytes (Get.gives_bytes h)

/-! ### Codecs put together -/

namespace Strict

/-- Two parts in a row are strict if each is. -/
theorem both (hc : c.Strict) (hd : d.Strict) : (c.both d).Strict := by
  intro x hx
  obtain ⟨ha, hb⟩ := gives_both hx
  exact Writable.both (hc x.1 ha) (hd x.2 hb)

/-- A check that everything passes that is read. -/
theorem guarded {check : α → Except WireError Unit}
    (hcheck : ∀ a, c.get.Gives a → check a = .ok ()) (hc : c.Strict) :
    (c.guarded check).Strict :=
  fun a ha => Writable.guarded (hcheck a ha) (hc a ha)

/-- A conversion that goes back is strict over what is. -/
theorem convert {ofWire : α → Except WireError β} {toWire : β → α}
    (hback : ∀ {a b}, ofWire a = .ok b → toWire b = a) (hc : c.Strict) :
    (c.convert ofWire toWire).Strict := by
  intro b hb
  obtain ⟨a, ha, hof⟩ := gives_convert hb
  obtain rfl := hback hof
  exact Writable.convert (hc _ ha)

/-- A bijection keeps strictness. -/
theorem imap {ofWire : α → β} {toWire : β → α} (hto : toWire ∘ ofWire = id) (hc : c.Strict) :
    (c.imap ofWire toWire).Strict := by
  intro b hb
  obtain ⟨a, ha, rfl⟩ := gives_imap hb
  have hback : toWire (ofWire a) = a := congrFun hto a
  refine Writable.imap ?_
  rw [hback]
  exact hc a ha

/-- A view that shows nothing but values that pass the check. -/
theorem view {ofWire : α → Except WireError β} {toWire : β → α}
    {check : β → Except WireError Unit} (hview : View ofWire toWire check)
    (hshown : ∀ {a b}, ofWire a = .ok b → check b = .ok ()) (hc : c.Strict) :
    (c.view ofWire toWire check).Strict := by
  refine guarded (fun b hb => ?_) (convert hview.toWire_of_ofWire hc)
  obtain ⟨a, -, hof⟩ := gives_convert hb
  exact hshown hof

/-- An optional value is strict if what may be there is. -/
theorem optional (hc : c.Strict) : c.optional.Strict :=
  fun _ ho => Writable.optional fun a ha => hc a (Get.gives_optional ho a ha)

/-- Both directions have the same bound on the number. -/
theorem array {max : UInt32} {kind field : String} (hc : c.Strict) :
    (c.array max kind field).Strict := by
  intro as has
  obtain ⟨hlen, hall⟩ := Get.gives_array has
  exact Writable.array hlen fun a ha => hc a (hall a ha)

/-- One level down is as strict as the step. -/
theorem nested (hc : c.Strict) : c.nested.Strict := fun a ha => hc a (Get.gives_nested ha)

end Strict

/-- A text is kept as its bytes. -/
theorem strict_text (max : UInt32) (kind field : String) : Strict (text max kind field) := by
  refine .convert (fun {b s} h => ?_) (strict_bytes max kind field)
  split at h
  · rename_i s' hs
    cases h
    exact (Bytes.toText?_eq_some_iff.1 hs).symm
  · cases h

/-! ### Unions -/

/-- Every arm finds its payloads again, and reads none that it does not write. -/
def StrictArms (arms : List (Arm α)) : Prop :=
  ∀ arm ∈ arms, (∀ payload, arm.project (arm.inject payload) = some payload) ∧ arm.codec.Strict

namespace StrictArms

variable {arms arms' : List (Arm α)} {tag : Int32}

theorem nil : StrictArms ([] : List (Arm α)) := fun _ h => nomatch h

/-- An arm with a payload. -/
theorem of {inject : β → α} {project : α → Option β} (hproject : project ∘ inject = some)
    (hd : d.Strict) (rest : StrictArms arms) : StrictArms (.of tag d inject project :: arms) :=
  List.forall_mem_cons.2 ⟨⟨congrFun hproject, hd⟩, rest⟩

/-- An arm without payload. -/
theorem bare {name : String} {value : α} {holds : α → Bool} (hholds : holds value = true)
    (rest : StrictArms arms) : StrictArms ((Schema.Arm.bare tag name value holds).wire :: arms) :=
  List.forall_mem_cons.2 ⟨⟨fun _ => if_pos hholds, strict_unit⟩, rest⟩

end StrictArms

section Union

variable {arms : List (Arm α)} {kind : String} {check : α → Except WireError Unit}

/-- **A union is strict if its arms are**, and if the rule allows all that they put together. -/
theorem Strict.guarded_union (held : ∀ a, backs arms a = [a] ∨ backs arms a = [])
    (distinct : decide (arms.map Arm.tag).Nodup = true)
    (hcheck : ∀ arm ∈ arms, ∀ payload, check (arm.inject payload) = .ok ())
    (parts : StrictArms arms) : ((union kind arms).guarded check).Strict := by
  have finds : ∀ arm ∈ arms, ∀ payload, arm.project (arm.inject payload) = some payload :=
    fun arm harm => (parts arm harm).1
  refine .guarded (fun a ha => ?_) fun a ha => ?_
  · obtain ⟨arm, harm, payload, -, rfl⟩ := gives_union ha
    exact hcheck arm harm payload
  · obtain ⟨arm, harm, payload, hpayload, rfl⟩ := gives_union ha
    have lawful : ∀ arm ∈ arms, arm.Lawful (numberOf arms) := fun _ => lawful_of_held finds held
    exact Writable.behind (put_union (of_decide_eq_true distinct) lawful harm payload)
      ((parts arm harm).2 payload hpayload)

/-- **A union is strict** if its tags are distinct, one arm holds each value, and every arm is
strict. -/
theorem Strict.union (held : ∀ a, backs arms a = [a])
    (distinct : decide (arms.map Arm.tag).Nodup = true) (parts : StrictArms arms) :
    (Codec.union kind arms).Strict := by
  have hguarded : ((Codec.union kind arms).guarded unchecked).Strict :=
    .guarded_union (fun a => .inl (held a)) distinct (fun _ _ _ => rfl) parts
  exact hguarded

/-- A union of one arm, whose values are its payloads. -/
theorem Strict.single {tag : Int32} (hc : c.Strict) :
    (Codec.union kind [.of tag c id some]).Strict :=
  .union (fun _ => rfl) rfl (.of rfl hc .nil)

end Union

/-! ### Whole byte strings -/

/-- **A strict codec decodes what it encodes, and nothing else.** -/
theorem Regular.decode_eq_ok_iff_encode {f : α → Nat} {limit : Nat} {a : α} {p : Bytes}
    (h : Regular limit c f) (hstrict : c.Strict) :
    c.decode p limit = .ok a ↔ f a ≤ limit ∧ c.encode a = .ok p := by
  have hk := Nat.le_refl limit
  constructor
  · intro hp
    have hreads := (h.decode_eq_ok_iff hk).1 hp
    have hgives : c.get.Gives a := ⟨_, _, hreads 0 limit [] (Nat.sub_zero limit)⟩
    obtain ⟨q, hq⟩ := hstrict a hgives
    obtain rfl := h.encode_of_decode hk hp hq.encode_eq
    exact ⟨h.nesting_le_of_decode hk hp, hq.encode_eq⟩
  · rintro ⟨ha, hp⟩
    exact h.decode_of_encode hk ha hp

end Codec

/-! ### Enumerations and recursive values -/

/-- An enumeration reads the numbers of its values. -/
theorem Enumeration.strict {α : Type} (e : Enumeration α) : e.wire.Strict :=
  Codec.strict_of_writable fun a => Codec.writable_i32 (e.number a)

namespace Schema

open Codec (Strict)

variable {α : Type} {own : α → Nat} {layout : Schema α → Schema α}

/-- Every level of a recursive layout is strict, by induction on the levels. -/
theorem strict_levels (hlayout : ∀ self : Schema α, self.wire.Strict → (layout self).wire.Strict)
    (n : Nat) : (levels layout n).wire.Strict := by
  induction n with
  | zero =>
      rintro a ⟨r, r', heq⟩
      cases heq
  | succ n ih => exact (hlayout _ ih).nested

/-- **A recursive schema is strict if one level is**, over whatever is strict. A value is read with
as many levels as the reader has room for, and it has no more, so it is written the same way. -/
theorem strict_recursive (h : Local own layout)
    (hlayout : ∀ self : Schema α, self.wire.Strict → (layout self).wire.Strict)
    (hroom : ∀ r r' a, (recursive own layout).wire.get r = (.ok a, r') → own a ≤ r.room) :
    (recursive own layout).wire.Strict := by
  rintro a ⟨r, r', hget⟩
  have hlevels : (levels layout r.room).wire.get.Gives a := ⟨r, r', hget⟩
  obtain ⟨p, hp⟩ := strict_levels hlayout r.room a hlevels
  have hput := levels_put h (hroom r r' a hget) (Nat.le_refl (own a))
  exact ⟨p, by rwa [Codec.Writes, hput] at hp⟩

end Schema

end LedgerWire
