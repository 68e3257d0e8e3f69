/-
# What a step of writing adds

A step of writing adds bytes behind what is there and does not look at it. This module is the
counterpart of `LedgerWire.Proofs.Wire.Reading`: for every step of `Put`, the bytes that it adds,
in the words in which the bytes that the partner reads are given there.

* `Put.Appends` — what the step adds and how it ends, whatever was written before.
* `Put.Steady` — there is such an answer, and a step that fails has found a broken rule.
* `Codec.Writes` — the codec writes a value as exactly these bytes.
* `Codec.encode_eq_ok_iff` — which is what `Codec.encode` gives.
-/

import LedgerWire.Proofs.Wire.Steps

namespace LedgerWire

/-- The fault says that a value breaks one of its rules. -/
def WireError.IsValidation (e : WireError) : Prop := ∃ field why, e = .validation field why

/-- The fault is a value with more digits than there is room for. -/
def WireError.IsPrecision (e : WireError) : Prop := ∃ why, e = .precision why

/-- The verdict complains of nothing but a broken rule. -/
def Judges (verdict : Except WireError Unit) : Prop := ∀ e, verdict = .error e → e.IsValidation

/-- To pass everything is to judge. -/
theorem judges_ok : Judges (.ok ()) := by
  intro e h
  cases h

/-- A verdict that names a field and what is wrong with it judges. -/
theorem judges_error (field : String) (why : Violation) :
    Judges (.error (.validation field why)) := by
  intro e h
  cases h
  exact ⟨field, why, rfl⟩

namespace Put

open Bytes (word)
open Get (zeros)

variable {α : Type} {m m' : Put} {p q : Bytes} {result : Except WireError Unit} {e : WireError}

/-- The step adds `out` and ends with `result`, whatever was written before. -/
def Appends (m : Put) (result : Except WireError Unit) (out : Bytes) : Prop :=
  ∀ w, m w = (result, ⟨w.content ++ out⟩)

/-- What the step adds and how it ends does not depend on what was written before, and it fails
only over a broken rule. -/
def Steady (m : Put) : Prop :=
  ∃ result out, m.Appends result out ∧ Judges result

/-- A writing comes to one result and adds one string of bytes. -/
theorem Appends.unique {result' : Except WireError Unit} (h : m.Appends result p)
    (h' : m.Appends result' q) : result = result' ∧ p = q := by
  have := (h .empty).symm.trans (h' .empty)
  simpa [Writer.empty] using this

/-! ### Steps put together -/

/-- **Writings in a row** add their bytes in a row. -/
theorem Appends.bind (hm : m.Appends (.ok ()) p) (hm' : m'.Appends result q) :
    Appends (do m; m') result (p ++ q) := by
  intro w
  rw [Attempt.bind_apply, hm w]
  show m' _ = _
  rw [hm']
  refine congrArg (fun content => (result, Writer.mk content)) (Array.toList_inj.1 ?_)
  simp

/-- After an error nothing more is written. -/
theorem Appends.bind_error (hm : m.Appends (.error e) p) : Appends (do m; m') (.error e) p := by
  intro w
  rw [Attempt.bind_apply, hm w]

/-- Steady writings in a row are steady. -/
theorem Steady.bind (hm : m.Steady) (hm' : m'.Steady) : Steady (do m; m') := by
  obtain ⟨result, p, h, hvalid⟩ := hm
  obtain ⟨result', q, h', hvalid'⟩ := hm'
  cases result with
  | ok u => exact ⟨result', p ++ q, h.bind h', hvalid'⟩
  | error e => exact ⟨.error e, p, h.bind_error, hvalid⟩

/-- **The bytes of a sequence are those of its steps, joined.** -/
theorem Appends.bind_iff (hm : m.Steady) (hm' : m'.Steady) :
    Appends (do m; m') (.ok ()) p ↔
      ∃ q r, p = q ++ r ∧ m.Appends (.ok ()) q ∧ m'.Appends (.ok ()) r := by
  constructor
  · intro hseq
    obtain ⟨result, q, h, -⟩ := hm
    obtain ⟨result', r, h', -⟩ := hm'
    cases result with
    | error e => cases (h.bind_error.unique hseq).1
    | ok u =>
        obtain ⟨rfl, rfl⟩ := (h.bind h').unique hseq
        exact ⟨q, r, rfl, h, h'⟩
  · rintro ⟨q, r, rfl, h, h'⟩
    exact h.bind h'

/-- What appends from every state is steady. -/
theorem steady_of_appends (h : m.Appends (.ok ()) p) : m.Steady := ⟨_, _, h, judges_ok⟩

/-- A writing that appends has one string of bytes. -/
theorem appends_iff_of_appends (h : m.Appends (.ok ()) p) : m.Appends (.ok ()) q ↔ q = p :=
  ⟨fun h' => (h'.unique h).2, fun hq => hq ▸ h⟩

/-! ### Single steps -/

theorem appends_ok : Appends (Attempt.ok ()) (.ok ()) [] := fun w => by simp [Attempt.ok]

theorem appends_fail (e : WireError) : Appends (Attempt.fail e) (.error e) [] := fun w => by simp

theorem appends_raw (bytes : Bytes) : Appends (raw bytes) (.ok ()) bytes := fun _ => rfl

theorem appends_u32 (n : UInt32) : Appends (u32 n) (.ok ()) (word n) := appends_raw _

theorem appends_u64 (n : UInt64) : Appends (u64 n) (.ok ()) (Bytes.bigEndian 8 n.toNat) :=
  appends_raw _

/-- Padded bytes are the bytes and the zeros up to the next word. -/
theorem appends_padded (bytes : Bytes) :
    Appends (padded bytes) (.ok ()) (bytes ++ zeros bytes.length) :=
  (appends_raw bytes).bind (appends_raw _)

/-- Whole blocks of four bytes are written as they are. -/
theorem appends_padded_of_dvd {bytes : Bytes} (h : 4 ∣ bytes.length) :
    Appends (padded bytes) (.ok ()) bytes := by
  have hnone : zeros bytes.length = [] := by
    rw [zeros, paddingFor, Nat.mod_eq_zero_of_dvd h]
    rfl
  have happends := appends_padded bytes
  rwa [hnone, List.append_nil] at happends

/-- A verdict writes nothing, whatever the state. -/
theorem steady_ofExcept {verdict : Except WireError Unit} (h : Judges verdict) :
    Steady (Attempt.ofExcept verdict) := by
  cases verdict with
  | ok u => exact steady_of_appends appends_ok
  | error e => exact ⟨_, _, appends_fail e, h⟩

/-- A verdict appends nothing, and only if it passes. -/
theorem appends_ofExcept_iff {verdict : Except WireError Unit} :
    Appends (Attempt.ofExcept verdict) (.ok ()) p ↔ verdict = .ok () ∧ p = [] := by
  cases verdict with
  | ok u => exact (appends_iff_of_appends appends_ok).trans (by simp)
  | error e =>
      refine iff_of_false (fun h => ?_) (by simp)
      cases (h.unique (appends_fail e)).1

/-- A check of a length writes nothing, whatever the state. -/
theorem steady_checkLength (length : Nat) (max : UInt32) (field : String) :
    Steady (checkLength length max field) := by
  unfold checkLength
  split
  · exact steady_of_appends appends_ok
  · exact ⟨_, _, appends_fail _, judges_error _ _⟩

/-- A length passes exactly if it is within the bound. -/
theorem appends_checkLength_iff {length : Nat} {max : UInt32} {field : String} :
    Appends (checkLength length max field) (.ok ()) p ↔ length ≤ max.toNat ∧ p = [] := by
  unfold checkLength
  split
  · rename_i h
    exact (appends_iff_of_appends appends_ok).trans (by simp [h])
  · rename_i h
    refine iff_of_false (fun h' => ?_) (by simp [h])
    cases (h'.unique (appends_fail _)).1

/-- What a bounded step writes behind the judgement of its length. -/
private theorem bounded_iff {length : Nat} {max : UInt32} {field : String} (hm : m.Steady) :
    Appends (do checkLength length max field; m) (.ok ()) p ↔
      length ≤ max.toNat ∧ m.Appends (.ok ()) p := by
  rw [Appends.bind_iff (steady_checkLength ..) hm]
  simp only [appends_checkLength_iff]
  constructor
  · rintro ⟨_, _, rfl, ⟨hlen, rfl⟩, h⟩
    exact ⟨hlen, h⟩
  · rintro ⟨hlen, h⟩
    exact ⟨[], p, rfl, ⟨hlen, rfl⟩, h⟩

/-! ### Byte strings -/

/-- Counted bytes are a word of their number, the bytes and the padding. -/
private theorem appends_counted_bytes (b : Bytes) :
    Appends (do u32 (UInt32.ofNat b.length); padded b) (.ok ())
      (word (UInt32.ofNat b.length) ++ (b ++ zeros b.length)) :=
  (appends_u32 _).bind (appends_padded b)

theorem steady_bytes (max : UInt32) (field : String) (b : Bytes) : Steady (bytes max field b) :=
  (steady_checkLength ..).bind (steady_of_appends (appends_counted_bytes b))

/-- A byte string within its bound is written as its length, its bytes, and the zeros behind
them. -/
theorem appends_bytes_iff {max : UInt32} {field : String} {b : Bytes} :
    Appends (bytes max field b) (.ok ()) p ↔
      b.length ≤ max.toNat ∧ p = word (UInt32.ofNat b.length) ++ (b ++ zeros b.length) := by
  have hbytes := appends_counted_bytes b
  exact (bounded_iff (steady_of_appends hbytes)).trans
    (and_congr_right fun _ => appends_iff_of_appends hbytes)

/-! ### Lists -/

variable {value : α → Put}

/-- Values in a row are written steadily if each is. -/
theorem steady_all {items : List α} (h : ∀ a ∈ items, (value a).Steady) :
    Steady (all value items) := by
  induction items with
  | nil => exact steady_of_appends appends_ok
  | cons a rest ih =>
      rw [List.forall_mem_cons] at h
      exact h.1.bind (ih h.2)

/-- Values in a row append their bytes in a row. -/
theorem appends_all_iff {items : List α} (h : ∀ a ∈ items, (value a).Steady) :
    Appends (all value items) (.ok ()) p ↔
      ∃ ps, List.Forall₂ (fun a p => (value a).Appends (.ok ()) p) items ps ∧ p = ps.flatten := by
  induction items generalizing p with
  | nil =>
      refine (appends_iff_of_appends appends_ok).trans ?_
      simp
  | cons a rest ih =>
      rw [List.forall_mem_cons] at h
      refine (Appends.bind_iff h.1 (steady_all h.2)).trans ?_
      simp only [ih h.2]
      constructor
      · rintro ⟨q, _, rfl, hq, ps, hps, rfl⟩
        exact ⟨q :: ps, .cons hq hps, rfl⟩
      · rintro ⟨_, hps, rfl⟩
        cases hps with
        | @cons _ q _ ps hq hps => exact ⟨q, ps.flatten, rfl, hq, ps, hps, rfl⟩

/-- A list is written steadily if its items are. -/
theorem steady_array {items : List α} (max : UInt32) (field : String)
    (h : ∀ a ∈ items, (value a).Steady) : Steady (array max field value items) :=
  (steady_checkLength ..).bind ((steady_of_appends (appends_u32 _)).bind (steady_all h))

/-- A list within its bound is written as its number and the bytes of its values. -/
theorem appends_array_iff {items : List α} {max : UInt32} {field : String}
    (h : ∀ a ∈ items, (value a).Steady) :
    Appends (array max field value items) (.ok ()) p ↔
      items.length ≤ max.toNat ∧
        ∃ ps, List.Forall₂ (fun a p => (value a).Appends (.ok ()) p) items ps
          ∧ p = word (UInt32.ofNat items.length) ++ ps.flatten := by
  have hcount := appends_u32 (UInt32.ofNat items.length)
  have hrest : Steady (do u32 (UInt32.ofNat items.length); all value items) :=
    (steady_of_appends hcount).bind (steady_all h)
  refine (bounded_iff hrest).trans (and_congr_right fun _ => ?_)
  rw [Appends.bind_iff (steady_of_appends hcount) (steady_all h)]
  simp only [appends_iff_of_appends hcount, appends_all_iff h]
  constructor
  · rintro ⟨_, _, rfl, rfl, ps, hps, rfl⟩
    exact ⟨ps, hps, rfl⟩
  · rintro ⟨ps, hps, rfl⟩
    exact ⟨_, _, rfl, rfl, ps, hps, rfl⟩

end Put

namespace Codec

variable {α : Type} {c : Codec α} {a : α} {p : Bytes} {e : WireError}

/-- The codec writes the value as exactly these bytes. -/
def Writes (c : Codec α) (a : α) (bytes : Bytes) : Prop := (c.put a).Appends (.ok ()) bytes

/-- What a codec adds is the wire form, unless it fails. -/
theorem encode_of_appends {result : Except WireError Unit} (h : (c.put a).Appends result p) :
    c.encode a = result.map fun _ => p := by
  unfold encode
  rw [h]
  cases result with
  | ok u => simp [Except.map, Writer.empty, Writer.toList]
  | error e => rfl

theorem Writes.encode_eq (h : c.Writes a p) : c.encode a = .ok p := encode_of_appends h

/-- **The wire form of a value is what its codec adds**, wherever it is added. -/
theorem encode_eq_ok_iff (h : (c.put a).Steady) : c.encode a = .ok p ↔ c.Writes a p := by
  refine ⟨fun henc => ?_, Writes.encode_eq⟩
  obtain ⟨result, out, happ, -⟩ := h
  rw [encode_of_appends happ] at henc
  cases result with
  | error e => cases henc
  | ok u =>
      cases henc
      exact happ

/-- Writing fails only over a broken rule. -/
theorem isValidation_of_encode (h : (c.put a).Steady) (henc : c.encode a = .error e) :
    e.IsValidation := by
  obtain ⟨result, out, happ, hvalid⟩ := h
  rw [encode_of_appends happ] at henc
  cases result with
  | ok u => cases henc
  | error e' =>
      cases henc
      exact hvalid e rfl

end Codec

end LedgerWire
