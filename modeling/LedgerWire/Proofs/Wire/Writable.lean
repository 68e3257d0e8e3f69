/-
# What can be written

A value is written as something unless it breaks a rule of the writer: of its own, or of one of its
parts. The rules here go by the combinators, and ask of a composite value no more than that its
parts can be written and its bounds are kept.

* `Codec.Writable` — the codec writes the value as something.
* `Writable.both`, `Writable.array`, `Writable.guarded`, … — one rule a combinator.
* `Codec.JudgedFirst` — a rule that settles it: a value that breaks the rule leaves no trace, and
  every other value is written.
-/

import LedgerWire.Proofs.Text.Bits
import LedgerWire.Proofs.Wire.Writing

namespace LedgerWire.Codec

open Put (Appends)

variable {α β : Type} {c : Codec α} {d : Codec β} {a : α} {b : β}

/-- The codec writes the value as something. -/
def Writable (c : Codec α) (a : α) : Prop := ∃ p, c.Writes a p

/-! ### Single values -/

theorem writable_unit : unit.Writable () := ⟨_, Put.appends_ok⟩

theorem writable_u32 (n : UInt32) : u32.Writable n := ⟨_, Put.appends_u32 n⟩

theorem writable_i32 (n : Int32) : i32.Writable n := ⟨_, Put.appends_u32 n.toUInt32⟩

theorem writable_u64 (n : UInt64) : u64.Writable n := ⟨_, Put.appends_u64 n⟩

theorem writable_i64 (n : Int64) : i64.Writable n := ⟨_, Put.appends_u64 n.toUInt64⟩

theorem writable_bool (b : Bool) : bool.Writable b := ⟨_, Put.appends_u32 (if b then 1 else 0)⟩

theorem writable_fixed {n : Nat} (v : Vector UInt8 n) : (fixed n).Writable v :=
  ⟨_, Put.appends_padded v.toList⟩

/-- Bytes within their bound can be written. -/
theorem writable_bytes {max : UInt32} {kind field : String} {bytes : Bytes}
    (h : bytes.length ≤ max.toNat) : (Codec.bytes max kind field).Writable bytes :=
  ⟨_, Put.appends_bytes_iff.2 ⟨h, rfl⟩⟩

/-- A text within its bound, counted in bytes, can be written. -/
theorem writable_text {max : UInt32} {kind field : String} {s : String}
    (h : s.utf8ByteSize ≤ max.toNat) : (text max kind field).Writable s := by
  have hlen : (Bytes.ofString s).length ≤ max.toNat := by rwa [Text.length_ofString]
  have hbytes : (bytes max kind field).Writable (Bytes.ofString s) := writable_bytes hlen
  exact hbytes

/-! ### Codecs put together -/

namespace Writable

/-- Two writable parts are writable in a row. -/
theorem both {x : α × β} (hc : c.Writable x.1) (hd : d.Writable x.2) : (c.both d).Writable x := by
  obtain ⟨p, hp⟩ := hc
  obtain ⟨q, hq⟩ := hd
  exact ⟨p ++ q, Appends.bind hp hq⟩

/-- A check that the value passes. -/
theorem guarded {check : α → Except WireError Unit} (hcheck : check a = .ok ())
    (h : c.Writable a) : (c.guarded check).Writable a := by
  obtain ⟨p, hp⟩ := h
  have hpass := Put.appends_ofExcept_iff.2 ⟨hcheck, rfl⟩
  exact ⟨[] ++ p, Appends.bind hpass hp⟩

/-- A converted value is writable if what it is written as is. -/
theorem convert {ofWire : α → Except WireError β} {toWire : β → α} (h : c.Writable (toWire b)) :
    (c.convert ofWire toWire).Writable b := h

/-- A value under a bijection is writable if what it stands for is. -/
theorem imap {ofWire : α → β} {toWire : β → α} (h : c.Writable (toWire b)) :
    (c.imap ofWire toWire).Writable b := h

/-- An optional value is writable if what is there is. -/
theorem optional {o : Option α} (h : ∀ a ∈ o, c.Writable a) : c.optional.Writable o := by
  cases o with
  | none => exact ⟨_, Put.appends_u32 0⟩
  | some a =>
      obtain ⟨p, hp⟩ := h a rfl
      exact ⟨_, Appends.bind (Put.appends_u32 1) hp⟩

/-- A slot is writable if what fills it is. -/
theorem extension {version : Int32} {kind : String} {o : Option α} (h : ∀ a ∈ o, c.Writable a) :
    (c.extension version kind).Writable o := by
  cases o with
  | none => exact ⟨_, Put.appends_u32 0⟩
  | some a =>
      obtain ⟨p, hp⟩ := h a rfl
      exact ⟨_, Appends.bind (Put.appends_u32 version.toUInt32) hp⟩

/-- Values have spellings one by one exactly if each of them has one. -/
theorem exists_forall₂_iff {ι : Type*} {spells : ι → Bytes → Prop} {as : List ι} :
    (∃ ps, List.Forall₂ spells as ps) ↔ ∀ a ∈ as, ∃ p, spells a p := by
  induction as with
  | nil => simp
  | cons a rest ih =>
      rw [List.forall_mem_cons, ← ih]
      constructor
      · rintro ⟨_, hps⟩
        cases hps with
        | @cons _ p _ ps hp hps => exact ⟨⟨p, hp⟩, ps, hps⟩
      · rintro ⟨⟨p, hp⟩, ps, hps⟩
        exact ⟨p :: ps, .cons hp hps⟩

/-- A list within its bound. -/
theorem array {max : UInt32} {kind field : String} {as : List α} (hlen : as.length ≤ max.toNat)
    (h : ∀ a ∈ as, c.Writable a) : (c.array max kind field).Writable as := by
  obtain ⟨ps, hps⟩ := exists_forall₂_iff.2 h
  have hsteady : ∀ a ∈ as, (c.put a).Steady := fun a ha =>
    (h a ha).elim fun _ hp => Put.steady_of_appends hp
  exact ⟨_, (Put.appends_array_iff hsteady).2 ⟨hlen, ps, hps, rfl⟩⟩

/-- A value that another codec writes the same way. -/
theorem of_put_eq (hput : c.put a = d.put b) (h : d.Writable b) : c.Writable a := by
  obtain ⟨p, hp⟩ := h
  exact ⟨p, by rwa [Writes, hput]⟩

/-- A value that stands behind a discriminant. -/
theorem behind {tag : Int32} (hput : c.put a = (do Put.i32 tag; d.put b)) (h : d.Writable b) :
    c.Writable a := by
  obtain ⟨p, hp⟩ := h
  have hbytes := Appends.bind (Put.appends_u32 tag.toUInt32) hp
  exact ⟨_, by rwa [Writes, hput]⟩

/-- A union of one arm, whose values are its payloads. -/
theorem single {tag : Int32} {kind : String} (h : c.Writable a) :
    (union kind [.of tag c id some]).Writable a :=
  behind rfl h

end Writable

/-! ### Rules that settle it -/

/-- Behind a check that passes the writing is the same. -/
theorem put_guarded_of_ok {check : α → Except WireError Unit} (h : check a = .ok ()) :
    (c.guarded check).put a = c.put a := by
  show (do Attempt.ofExcept (check a); c.put a : Put) = _
  rw [h]
  rfl

/-- A value that a check refuses leaves no trace. -/
theorem put_guarded_of_error {check : α → Except WireError Unit} {e : WireError}
    (h : check a = .error e) (w : Writer) : (c.guarded check).put a w = (.error e, w) := by
  show (do Attempt.ofExcept (check a); c.put a : Put) w = _
  rw [h]
  rfl

/-- The codec refuses a value that breaks the rules with what they say, before it writes anything,
and it writes every value that obeys them, the same bytes behind whatever is there. -/
structure JudgedFirst (validate : α → Except WireError Unit) (c : Codec α) : Prop where
  put_of_error : ∀ {a e}, validate a = .error e → ∀ w, c.put a w = (.error e, w)
  put_of_ok : ∀ {a}, validate a = .ok () →
    ∃ out : Bytes, ∀ w, c.put a w = (.ok (), ⟨w.content ++ out⟩)

namespace JudgedFirst

variable {validate : α → Except WireError Unit}

/-- A value that passes the check of a codec that judges first can be written. -/
theorem writable (h : JudgedFirst validate c) (hvalid : validate a = .ok ()) : c.Writable a :=
  h.put_of_ok hvalid

/-- **A guard settles it if it foresees every rule behind it.** -/
theorem guarded (h : ∀ a, validate a = .ok () → c.Writable a) :
    JudgedFirst validate (c.guarded validate) where
  put_of_error := put_guarded_of_error
  put_of_ok {a} hvalid := Writable.guarded hvalid (h a hvalid)

end JudgedFirst

end LedgerWire.Codec
