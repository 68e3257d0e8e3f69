/-
# What writing a value depends on

`LedgerWire.Proofs.Wire.Writable` asks enough of a value to write it. The laws here ask exactly as
much: a composite value is written if its bounds are kept and its parts are written, and where it
is not, the fault is that of its own rule or of one part. They hold wherever writing is steady,
which it is for every regular codec.

* `writable_both_iff`, `writable_array_iff`, … — when a composite value is written.
* `Codec.verdict`, `Codec.Ends` — how writing a value ends, whatever was written before.
* `Ends.after`, `Ends.before`, `Ends.guarded`, … — which part of a composite value decides that.
* `Put.appends_bytes_of_lt`, `Put.appends_array_of_lt` — a bounded step above its bound adds
  nothing.
-/

import LedgerWire.Proofs.Wire.Codecs
import LedgerWire.Proofs.Wire.Writable

namespace LedgerWire

/-! ### Steps above their bound -/

namespace Put

variable {α : Type} {max : UInt32} {field : String}

/-- A length above its bound is refused before any byte. -/
theorem appends_checkLength_of_lt {length : Nat} (h : max.toNat < length) :
    Appends (checkLength length max field)
      (.error (.validation field (.lengthAbove length max.toNat))) [] := by
  unfold checkLength
  rw [if_neg (Nat.not_le.2 h)]
  exact appends_fail _

/-- A byte string above its bound leaves no trace. -/
theorem appends_bytes_of_lt {b : Bytes} (h : max.toNat < b.length) :
    Appends (bytes max field b)
      (.error (.validation field (.lengthAbove b.length max.toNat))) [] :=
  (appends_checkLength_of_lt h).bind_error

/-- A list above its bound leaves no trace, whatever is in it. -/
theorem appends_array_of_lt {value : α → Put} {items : List α} (h : max.toNat < items.length) :
    Appends (array max field value items)
      (.error (.validation field (.lengthAbove items.length max.toNat))) [] :=
  (appends_checkLength_of_lt h).bind_error

end Put

namespace Codec

open Put (Appends Steady)

variable {α β : Type} {c : Codec α} {d : Codec β} {a : α} {b : β} {p : Bytes}

/-! ### When a value is written -/

/-- **A value has a wire form exactly if it can be written.** -/
theorem exists_encode_iff (h : (c.put a).Steady) : (∃ p, c.encode a = .ok p) ↔ c.Writable a :=
  exists_congr fun _ => encode_eq_ok_iff h

/-- A value that another codec writes the same way. -/
theorem writable_congr (hput : c.put a = d.put b) : c.Writable a ↔ d.Writable b :=
  ⟨.of_put_eq hput.symm, .of_put_eq hput⟩

/-- Two parts in a row are writable exactly if each is. -/
theorem writable_both_iff {x : α × β} (hc : (c.put x.1).Steady) (hd : (d.put x.2).Steady) :
    (c.both d).Writable x ↔ c.Writable x.1 ∧ d.Writable x.2 := by
  constructor
  · rintro ⟨p, hp⟩
    obtain ⟨q, r, -, hq, hr⟩ := (writes_both_iff hc hd).1 hp
    exact ⟨⟨q, hq⟩, r, hr⟩
  · rintro ⟨hx, hy⟩
    exact .both hx hy

/-- Behind a check a value is writable exactly if it passes and was writable without it. -/
theorem writable_guarded_iff {check : α → Except WireError Unit} (hc : (c.put a).Steady)
    (hcheck : Judges (check a)) :
    (c.guarded check).Writable a ↔ check a = .ok () ∧ c.Writable a := by
  constructor
  · rintro ⟨p, hp⟩
    obtain ⟨hok, hw⟩ := (writes_guarded_iff hc hcheck).1 hp
    exact ⟨hok, p, hw⟩
  · rintro ⟨hok, h⟩
    exact .guarded hok h

/-- Bytes are writable exactly if they are within their bound. -/
theorem writable_bytes_iff {max : UInt32} {kind field : String} {bytes : Bytes} :
    (Codec.bytes max kind field).Writable bytes ↔ bytes.length ≤ max.toNat := by
  constructor
  · rintro ⟨p, hp⟩
    exact (Put.appends_bytes_iff.1 hp).1
  · exact writable_bytes

/-- An optional value is writable exactly if what is there is. -/
theorem writable_optional_iff {o : Option α} (hc : ∀ a ∈ o, (c.put a).Steady) :
    c.optional.Writable o ↔ ∀ a ∈ o, c.Writable a := by
  constructor
  · rintro ⟨p, hp⟩ a rfl
    obtain ⟨q, -, hq⟩ := (writes_optional_iff hc).1 hp
    exact ⟨q, hq⟩
  · exact .optional

/-- **A list is writable** exactly if it is within its bound and each item is writable. -/
theorem writable_array_iff {max : UInt32} {kind field : String} {as : List α}
    (hc : ∀ a ∈ as, (c.put a).Steady) :
    (c.array max kind field).Writable as ↔ as.length ≤ max.toNat ∧ ∀ a ∈ as, c.Writable a := by
  constructor
  · rintro ⟨p, hp⟩
    obtain ⟨hlen, ps, hps, -⟩ := (writes_array_iff hc).1 hp
    exact ⟨hlen, Writable.exists_forall₂_iff.1 ⟨ps, hps⟩⟩
  · rintro ⟨hlen, h⟩
    exact .array hlen h

/-- A value that stands behind a discriminant, and nothing else. -/
theorem writable_behind_iff {tag : Int32} (hput : c.put a = (do Put.i32 tag; d.put b))
    (hd : (d.put b).Steady) : c.Writable a ↔ d.Writable b := by
  constructor
  · rintro ⟨p, hp⟩
    have htag := Put.steady_of_appends (Put.appends_u32 tag.toUInt32)
    rw [Writes, hput] at hp
    obtain ⟨-, q, -, -, hq⟩ := (Appends.bind_iff htag hd).1 hp
    exact ⟨q, hq⟩
  · exact .behind hput

/-! ### How writing ends -/

/-- Writing the value adds something, or nothing, and ends with `result`, whatever was written
before. -/
def Ends (c : Codec α) (a : α) (result : Except WireError Unit) : Prop :=
  ∃ out, (c.put a).Appends result out

/-- How writing the value ends: with nothing to complain of, or with a fault. -/
def verdict (c : Codec α) (a : α) : Except WireError Unit := (c.encode a).map fun _ => ()

/-- A value has bytes exactly if its verdict passes. -/
theorem exists_encode_iff_verdict : (∃ p, c.encode a = .ok p) ↔ c.verdict a = .ok () := by
  unfold verdict
  cases c.encode a <;> simp [Except.map]

/-- A writable value ends well. -/
theorem Writable.ends (h : c.Writable a) : c.Ends a (.ok ()) := h

variable {result : Except WireError Unit}

/-- How a value ends is its verdict. -/
theorem Ends.verdict_eq (h : c.Ends a result) : c.verdict a = result := by
  obtain ⟨out, hout⟩ := h
  rw [verdict, encode_of_appends hout]
  cases result <;> rfl

/-- **Writing ends with the verdict.** -/
theorem ends_verdict (h : (c.put a).Steady) : c.Ends a (c.verdict a) := by
  obtain ⟨result, out, hout, -⟩ := h
  have hends : c.Ends a result := ⟨out, hout⟩
  rwa [hends.verdict_eq]

/-- The verdict passes exactly if the value is writable. -/
theorem verdict_eq_ok_iff (h : (c.put a).Steady) : c.verdict a = .ok () ↔ c.Writable a := by
  refine ⟨fun hok => ?_, fun hw => hw.ends.verdict_eq⟩
  have hends := ends_verdict h
  rwa [hok] at hends

namespace Ends

/-- Behind a value that is written, the second value decides. -/
theorem after {x : α × β} (hc : c.Writable x.1) (hd : d.Ends x.2 result) :
    (c.both d).Ends x result := by
  obtain ⟨p, hp⟩ := hc
  obtain ⟨q, hq⟩ := hd
  exact ⟨p ++ q, hp.bind hq⟩

/-- In front of a value that is written, the first value decides. -/
theorem before {x : α × β} (hd : d.Writable x.2) (hc : c.Ends x.1 result) :
    (c.both d).Ends x result := by
  obtain ⟨p, hp⟩ := hc
  obtain ⟨q, hq⟩ := hd
  cases result with
  | ok u => exact ⟨p ++ q, hp.bind hq⟩
  | error e => exact ⟨p, hp.bind_error⟩

theorem imap {ofWire : α → β} {toWire : β → α} (h : c.Ends (toWire b) result) :
    (c.imap ofWire toWire).Ends b result := h

/-- A value that stands behind a discriminant, and nothing else. -/
theorem behind {tag : Int32} (hput : c.put a = (do Put.i32 tag; d.put b))
    (h : d.Ends b result) : c.Ends a result := by
  obtain ⟨q, hq⟩ := h
  have hbytes := (Put.appends_u32 tag.toUInt32).bind hq
  exact ⟨_, by rwa [hput]⟩

/-- A check decides, unless the value passes it. -/
theorem guarded {check : α → Except WireError Unit} (h : check a = .ok () → c.Ends a result) :
    (c.guarded check).Ends a (do check a; result) := by
  cases hcheck : check a with
  | ok u =>
      obtain ⟨p, hp⟩ := h hcheck
      have hpass := Put.appends_ofExcept_iff.2 ⟨hcheck, rfl⟩
      exact ⟨[] ++ p, hpass.bind hp⟩
  | error e =>
      have hfail : Appends (Attempt.ofExcept (check a)) (.error e) [] := by
        rw [hcheck]
        exact Put.appends_fail e
      exact ⟨[], hfail.bind_error⟩

end Ends

end Codec

end LedgerWire
