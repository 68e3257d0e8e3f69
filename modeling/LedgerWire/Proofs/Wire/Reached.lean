/-
# Values that touch the wire

A value touches the wire if it can be written, or if it was read. Parts of such values touch the
wire too, and what is checked in both directions holds of them.

* `Codec.Reached` — the value is written from some state, or read from some state.
* `Reached.of_encode`, `Reached.of_decode` — whole byte strings are one such state.
* `Reached.both`, `Reached.array`, … — the parts of a value, one rule a combinator.
* `Reached.union` — a value of a union is the payload of an arm.
* `Reached.judged` — a rule that is checked before writing, and that reading never breaks.
-/

import LedgerWire.Proofs.Schema.Rules
import LedgerWire.Proofs.Wire.Giving

namespace LedgerWire.Codec

open Attempt (Gives)

variable {α β : Type} {c : Codec α} {d : Codec β} {a : α} {b : β}

/-- The value is written by the codec, or read by it. -/
def Reached (c : Codec α) (a : α) : Prop := (c.put a).Gives () ∨ c.get.Gives a

/-- What is written as bytes is written. -/
theorem Writes.gives {p : Bytes} (h : c.Writes a p) : (c.put a).Gives () :=
  ⟨.empty, _, h .empty⟩

/-- What has a wire form is written. -/
theorem gives_of_encode {p : Bytes} (h : c.encode a = .ok p) : (c.put a).Gives () := by
  unfold encode at h
  split at h
  · rename_i w hput
    exact ⟨.empty, w, hput⟩
  · cases h

namespace Reached

/-! ### Whole byte strings -/

/-- A value that was encoded is reached. -/
theorem of_encode {p : Bytes} (h : c.encode a = .ok p) : c.Reached a := .inl (gives_of_encode h)

/-- A value that was decoded is reached, within any limit. -/
theorem of_decode {p : Bytes} {limit : Nat} (h : c.decode p limit = .ok a) : c.Reached a := by
  have hgives : Gives (do let a ← c.get; Get.finish; return a : Get α) a := by
    refine ⟨Reader.start p limit, _, Prod.ext h rfl⟩
  obtain ⟨a', ha', hrest⟩ := hgives.bind
  obtain ⟨_, -, hpure⟩ := hrest.bind
  obtain rfl := hpure.eq_of_pure
  exact .inr ha'

/-! ### Codecs put together -/

/-- Both parts of a reached pair are. -/
theorem both {x : α × β} (h : (c.both d).Reached x) : c.Reached x.1 ∧ d.Reached x.2 := by
  rcases h with hput | hget
  · obtain ⟨_, ha, hb⟩ := hput.bind
    exact ⟨.inl ha, .inl hb⟩
  · obtain ⟨ha, hb⟩ := gives_both hget
    exact ⟨.inr ha, .inr hb⟩

/-- What a reached value is converted from is reached, if the conversion goes back. -/
theorem convert {ofWire : α → Except WireError β} {toWire : β → α}
    (hback : ∀ {a b}, ofWire a = .ok b → toWire b = a) (h : (c.convert ofWire toWire).Reached b) :
    c.Reached (toWire b) := by
  rcases h with hput | hget
  · exact .inl hput
  · obtain ⟨a, ha, hof⟩ := gives_convert hget
    obtain rfl := hback hof
    exact .inr ha

/-- What a reached value stands for is reached. -/
theorem imap {ofWire : α → β} {toWire : β → α} (hto : toWire ∘ ofWire = id)
    (h : (c.imap ofWire toWire).Reached b) : c.Reached (toWire b) := by
  rcases h with hput | hget
  · exact .inl hput
  · obtain ⟨a, ha, rfl⟩ := gives_imap hget
    have hback : toWire (ofWire a) = a := congrFun hto a
    exact .inr (by rwa [hback])

/-- A reached value behind a check is reached without it. -/
theorem guarded {check : α → Except WireError Unit} (h : (c.guarded check).Reached a) :
    c.Reached a := by
  rcases h with hput | hget
  · obtain ⟨_, -, hrest⟩ := hput.bind
    exact .inl hrest
  · exact .inr hget

/-- A rule that is checked before writing, and that reading never breaks. -/
theorem judged {check : α → Except WireError Unit} (hread : ∀ a, c.get.Gives a → check a = .ok ())
    (h : (c.guarded check).Reached a) : check a = .ok () := by
  rcases h with hput | hget
  · obtain ⟨_, hcheck, -⟩ := hput.bind
    exact hcheck.eq_ok_of_ofExcept
  · exact hread a hget

/-- What is there of a reached optional value is reached. -/
theorem optional {o : Option α} (h : c.optional.Reached o) : ∀ a ∈ o, c.Reached a := by
  rcases h with hput | hget
  · exact fun a ha => .inl (Put.gives_optional hput a ha)
  · exact fun a ha => .inr (Get.gives_optional hget a ha)

/-- What fills a reached slot is reached. -/
theorem extension {version : Int32} {kind : String} {o : Option α}
    (h : (c.extension version kind).Reached o) : ∀ a ∈ o, c.Reached a := by
  rcases h with hput | hget
  · exact fun a ha => .inl (Put.gives_extension hput a ha)
  · exact fun a ha => .inr (Get.gives_extension hget a ha)

/-- Every item of a reached list is. -/
theorem array {max : UInt32} {kind field : String} {as : List α}
    (h : (c.array max kind field).Reached as) : ∀ a ∈ as, c.Reached a := by
  rcases h with hput | hget
  · exact fun a ha => .inl (Put.gives_array hput a ha)
  · exact fun a ha => .inr ((Get.gives_array hget).2 a ha)

/-- Byte strings have the same bound in both directions. -/
theorem bytes {max : UInt32} {kind field : String} {bs : Bytes}
    (h : (Codec.bytes max kind field).Reached bs) : bs.length ≤ max.toNat := by
  rcases h with hput | hget
  · exact Put.le_of_gives_bytes hput
  · exact Get.gives_bytes hget

/-- One level down the same values are reached. -/
theorem nested (h : c.nested.Reached a) : c.Reached a := by
  rcases h with hput | hget
  · exact .inl hput
  · exact .inr (Get.gives_nested hget)

/-! ### Unions -/

/-- A value of a union is the payload of an arm, if each value belongs to one. -/
theorem union {arms : List (Arm α)} {kind : String} (held : ∀ a, backs arms a = [a])
    (h : (Codec.union kind arms).Reached a) :
    ∃ arm ∈ arms, ∃ payload, arm.inject payload = a ∧ arm.codec.Reached payload := by
  rcases h with hput | hget
  · have hmem : a ∈ backs arms a := by
      rw [held a]
      exact List.mem_singleton_self a
    obtain ⟨arm, harm, hback⟩ := List.mem_filterMap.1 hmem
    have hisSome : (arm.back a).isSome = true := by rw [hback]; rfl
    obtain ⟨payload, hproject, hinject⟩ := Option.map_eq_some_iff.1 hback
    have hsteps : arms.findSome? (·.put? a) = arm.put? a :=
      findSome?_of_filterMap (held a) harm hisSome fun other => by simp [Arm.put?, Arm.back]
    have hgives : ((arms.findSome? (·.put? a)).getD (Attempt.ok ())).Gives () := hput
    rw [hsteps, Arm.put?, hproject] at hgives
    obtain ⟨_, -, hpayload⟩ := hgives.bind
    exact ⟨arm, harm, payload, hinject, .inl hpayload⟩
  · obtain ⟨arm, harm, payload, hpayload, hinject⟩ := gives_union hget
    exact ⟨arm, harm, payload, hinject, .inr hpayload⟩

/-- The values of a union of one arm are its payloads. -/
theorem single {kind : String} {tag : Int32}
    (h : (Codec.union kind [.of tag c id some]).Reached a) : c.Reached a := by
  obtain ⟨arm, harm, payload, hinject, hpayload⟩ := union (fun _ => rfl) h
  obtain rfl := List.mem_singleton.1 harm
  exact hinject ▸ hpayload

end Reached

end LedgerWire.Codec
