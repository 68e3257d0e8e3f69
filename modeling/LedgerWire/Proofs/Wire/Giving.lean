/-
# What a value that was read or written is made of

A composite value is read in parts, and written in parts. Whatever a composite step gives, from any
state, its parts were given by the steps that it is put together from.

* `Attempt.Gives` — from some state the step gives the value.
* `Gives.bind`, `Gives.map`, … — the parts of what sequences of steps give.
* `Get.gives_optional`, `Put.gives_optional`, … — the parts of composite values.
-/

import LedgerWire.Proofs.Wire.Codecs

namespace LedgerWire

namespace Attempt

variable {σ α β : Type} {g : Attempt σ α} {a : α} {b : β}

/-- From some state the step gives the value. -/
def Gives (g : Attempt σ α) (a : α) : Prop := ∃ s s', g s = (.ok a, s')

/-! ### Sequences -/

namespace Gives

/-- A sequence gives what its second part does after its first gave something. -/
theorem bind {f : α → Attempt σ β} (h : (g >>= f).Gives b) : ∃ a, g.Gives a ∧ (f a).Gives b := by
  obtain ⟨s, s', hseq⟩ := h
  obtain ⟨a, t, hg, hf⟩ := bind_ok_iff.1 hseq
  exact ⟨a, ⟨s, t, hg⟩, t, s', hf⟩

/-- A step that reads nothing gives its value only. -/
theorem eq_of_pure {a' : α} (h : Gives (pure a : Attempt σ α) a') : a' = a := by
  obtain ⟨s, s', heq⟩ := h
  cases heq
  rfl

/-- A step that fails gives nothing. -/
theorem not_fail {e : WireError} : ¬Gives (fail e : Attempt σ α) a := by
  rintro ⟨s, s', heq⟩
  cases heq

/-- What is given under a function is the image of something given. -/
theorem map {f : α → β} (h : Gives (do return f (← g) : Attempt σ β) b) :
    ∃ a, g.Gives a ∧ f a = b := by
  obtain ⟨a, ha, hb⟩ := h.bind
  exact ⟨a, ha, (eq_of_pure hb).symm⟩

/-- A verdict gives what it passes. -/
theorem eq_ok_of_ofExcept {x : Except WireError α} (h : Gives (ofExcept x : Attempt σ α) a) :
    x = .ok a := by
  cases x with
  | ok a' => rw [eq_of_pure h]
  | error e => exact absurd h not_fail

end Gives

end Attempt

open Attempt (Gives)

/-! ### Reading -/

namespace Get

variable {α : Type} {g : Get α} {a : α}

/-- What may be there was given, if it is there. -/
theorem gives_optional {o : Option α} (h : g.optional.Gives o) : ∀ a ∈ o, g.Gives a := by
  obtain ⟨present, -, hrest⟩ := h.bind
  cases present with
  | true =>
      obtain ⟨a, ha, rfl⟩ := hrest.map
      rintro a' ⟨⟩
      exact ha
  | false =>
      obtain rfl := hrest.eq_of_pure
      nofun

/-- What fills a slot was given. -/
theorem gives_extension {version : Int32} {kind : String} {o : Option α}
    (h : (g.extension version kind).Gives o) : ∀ a ∈ o, g.Gives a := by
  obtain ⟨word, -, hrest⟩ := h.bind
  by_cases hzero : word = 0
  · rw [if_pos hzero] at hrest
    obtain rfl := hrest.eq_of_pure
    nofun
  · rw [if_neg hzero] at hrest
    by_cases hversion : word = version
    · rw [if_pos hversion] at hrest
      obtain ⟨a, ha, rfl⟩ := hrest.map
      rintro a' ⟨⟩
      exact ha
    · rw [if_neg hversion] at hrest
      exact absurd hrest Gives.not_fail

/-- A repetition gives as many values as it was told, each of them given by its step. -/
theorem gives_times {n : Nat} {as : List α} (h : (g.times n).Gives as) :
    as.length = n ∧ ∀ a ∈ as, g.Gives a := by
  induction n generalizing as with
  | zero =>
      obtain rfl := Gives.eq_of_pure h
      exact ⟨rfl, nofun⟩
  | succ n ih =>
      obtain ⟨first, hfirst, hrest⟩ := h.bind
      obtain ⟨rest, hothers, rfl⟩ := hrest.map
      obtain ⟨hlen, hall⟩ := ih hothers
      exact ⟨by rw [List.length_cons, hlen], List.forall_mem_cons.2 ⟨hfirst, hall⟩⟩

/-- **A list that was read is within its bound**, and each item was given. -/
theorem gives_array {max : UInt32} {kind : String} {as : List α}
    (h : (g.array max kind).Gives as) : as.length ≤ max.toNat ∧ ∀ a ∈ as, g.Gives a := by
  rw [array_eq] at h
  obtain ⟨count, -, hrest⟩ := h.bind
  by_cases hmax : max < count
  · rw [if_pos hmax] at hrest
    exact absurd hrest Gives.not_fail
  · rw [if_neg hmax] at hrest
    obtain ⟨r, r', hcounted⟩ := hrest
    obtain ⟨-, htimes⟩ := counted_apply.1 hcounted
    obtain ⟨hlen, hall⟩ := gives_times ⟨r, r', htimes⟩
    have hle : count.toNat ≤ max.toNat := Nat.not_lt.1 fun hlt => hmax hlt
    exact ⟨by omega, hall⟩

/-- Bytes that were read are within their bound. -/
theorem gives_bytes {max : UInt32} {kind : String} {bs : Bytes}
    (h : (Get.bytes max kind).Gives bs) : bs.length ≤ max.toNat := by
  obtain ⟨r, r', heq⟩ := h
  obtain ⟨front, rest, -, -, hreads, -⟩ := (aligned_bytes max kind).toFramed.split rfl heq
  exact (Reads.bytes_iff.1 hreads).1

/-- One level down gives what the step does. -/
theorem gives_nested (h : g.nested.Gives a) : g.Gives a := by
  obtain ⟨⟨input, depth, limit⟩, r', heq⟩ := h
  by_cases hroom : depth < limit
  · obtain ⟨t, ht, -⟩ := (nested_apply_iff hroom).1 heq
    exact ⟨_, t, ht⟩
  · rw [nested_refused (by omega)] at heq
    cases heq

end Get

/-! ### Writing -/

namespace Put

variable {α : Type} {value : α → Put}

/-- A length that passed is within the bound. -/
theorem le_of_gives_checkLength {length : Nat} {max : UInt32} {field : String}
    (h : (checkLength length max field).Gives ()) : length ≤ max.toNat := by
  by_contra hlong
  rw [checkLength, if_neg hlong] at h
  exact Gives.not_fail h

/-- What may be there was written, if it is there. -/
theorem gives_optional {o : Option α} (h : (optional value o).Gives ()) :
    ∀ a ∈ o, (value a).Gives () := by
  rintro a ⟨⟩
  obtain ⟨_, -, ha⟩ := h.bind
  exact ha

/-- What fills a slot was written. -/
theorem gives_extension {version : Int32} {o : Option α}
    (h : (extension version value o).Gives ()) : ∀ a ∈ o, (value a).Gives () := by
  rintro a ⟨⟩
  obtain ⟨_, -, ha⟩ := h.bind
  exact ha

/-- Of values in a row each was written. -/
theorem gives_all {as : List α} (h : (all value as).Gives ()) : ∀ a ∈ as, (value a).Gives () := by
  induction as with
  | nil => nofun
  | cons a rest ih =>
      obtain ⟨_, ha, hrest⟩ := h.bind
      exact List.forall_mem_cons.2 ⟨ha, ih hrest⟩

/-- Of a list that was written each item was. -/
theorem gives_array {max : UInt32} {field : String} {as : List α}
    (h : (array max field value as).Gives ()) : ∀ a ∈ as, (value a).Gives () := by
  obtain ⟨_, -, hrest⟩ := h.bind
  obtain ⟨_, -, hall⟩ := hrest.bind
  exact gives_all hall

/-- Bytes that were written are within their bound. -/
theorem le_of_gives_bytes {max : UInt32} {field : String} {bs : Bytes}
    (h : (bytes max field bs).Gives ()) : bs.length ≤ max.toNat := by
  obtain ⟨_, hlength, -⟩ := h.bind
  exact le_of_gives_checkLength hlength

end Put

/-! ### Codecs put together -/

namespace Codec

variable {α β : Type} {c : Codec α} {d : Codec β} {a : α} {b : β}

/-- Of two parts in a row each was given. -/
theorem gives_both {x : α × β} (h : (c.both d).get.Gives x) :
    c.get.Gives x.1 ∧ d.get.Gives x.2 := by
  obtain ⟨a, ha, hrest⟩ := Gives.bind h
  obtain ⟨b, hb, rfl⟩ := hrest.map
  exact ⟨ha, hb⟩

/-- A converted value was converted from a given one. -/
theorem gives_convert {ofWire : α → Except WireError β} {toWire : β → α}
    (h : (c.convert ofWire toWire).get.Gives b) : ∃ a, c.get.Gives a ∧ ofWire a = .ok b := by
  obtain ⟨a, ha, hof⟩ := Gives.bind h
  exact ⟨a, ha, hof.eq_ok_of_ofExcept⟩

/-- A value under a bijection stands for a given one. -/
theorem gives_imap {ofWire : α → β} {toWire : β → α} (h : (c.imap ofWire toWire).get.Gives b) :
    ∃ a, c.get.Gives a ∧ ofWire a = b :=
  Gives.map h

/-- A value of a union was read by one of the arms. -/
theorem gives_union {arms : List (Arm α)} {kind : String} (h : (union kind arms).get.Gives a) :
    ∃ arm ∈ arms, ∃ payload, arm.codec.get.Gives payload ∧ arm.inject payload = a := by
  obtain ⟨tag, -, hrest⟩ := Gives.bind h
  split at hrest
  · rename_i arm hfound
    obtain ⟨payload, hpayload, hinject⟩ := Gives.map hrest
    exact ⟨arm, List.mem_of_find?_eq_some hfound, payload, hpayload, hinject⟩
  · exact absurd hrest Gives.not_fail

end Codec

end LedgerWire
