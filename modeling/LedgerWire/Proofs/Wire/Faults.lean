/-
# What reading can complain of

Reading meets bytes it knows nothing of, so what it complains of is the bytes: that they end, that
they stand for nothing, that they go too deep. The faults of building and writing values, and of the
text forms, are none of its own. This module follows the faults of a step through the steps that it
is made of.

* `WireError.IsOfInput` — the faults that some bytes have, whatever is read from them.
* `Get.Reports` — every fault of the step is of a kind; one rule a step, as in
  `LedgerWire.Proofs.Wire.Steps`.
* `Regular.reports` — regular codecs complain of their input, or that it stands for no value.
* `Regular.isOfBytes_of_decode` — and over a whole byte string, that some of it is left over.
-/

import LedgerWire.Proofs.Wire.Whole

namespace LedgerWire

namespace WireError

/-- The fault is one that bytes can have for any reader. -/
def IsOfInput : WireError → Prop
  | .unexpectedEnd .. | .malformed .. | .unknownVariant .. | .depthLimitExceeded _ => True
  | _ => False

/-- The fault is one that a whole byte string can have: it ends too early or too late, it is
malformed, it names a variant that does not exist or exists no more, or it goes too deep. -/
def IsOfBytes : WireError → Prop
  | .unexpectedEnd .. | .malformed .. | .unknownVariant .. | .unsupported _ | .trailingBytes _
  | .depthLimitExceeded _ => True
  | .validation .. | .precision _ | .base64 => False

end WireError

namespace Get

open WireError (IsOfInput)

variable {α β : Type} {k : Nat} {P Q : WireError → Prop} {g : Get α}

/-- Where there is room for `k` levels at most, every fault of the step is of the kind; without a
fault there is no more room afterwards. -/
structure Reports (k : Nat) (P : WireError → Prop) (g : Get α) : Prop where
  fault : ∀ {r e r'}, r.room ≤ k → g r = (.error e, r') → P e
  room_le : ∀ {r a r'}, r.room ≤ k → g r = (.ok a, r') → r'.room ≤ k

/-- Faults of one kind are faults of any wider kind. -/
theorem Reports.mono (hg : g.Reports k P) (hPQ : ∀ e, P e → Q e) : g.Reports k Q := by
  constructor
  · intro r e r' hroom h
    exact hPQ e (hg.fault hroom h)
  · exact hg.room_le

/-- A step that goes no further in complains of what each of its runs complains of. -/
theorem reports_of_run
    (h : ∀ r, (∃ e r', g r = (.error e, r') ∧ P e) ∨ ∃ a r', g r = (.ok a, r') ∧ r'.room = r.room) :
    g.Reports k P := by
  constructor
  · intro r e r' _ hrun
    rcases h r with ⟨e', _, hfault, he⟩ | ⟨_, _, hok, -⟩
    · rw [hrun] at hfault
      cases hfault
      exact he
    · rw [hrun] at hok
      cases hok
  · intro r a r' hroom hrun
    rcases h r with ⟨_, _, hfault, -⟩ | ⟨_, _, hok, hsame⟩
    · rw [hrun] at hfault
      cases hfault
    · rw [hrun] at hok
      cases hok
      rw [hsame]
      exact hroom

/-! ### Steps put together -/

/-- A step that always succeeds complains of nothing. -/
theorem reports_pure (a : α) : Reports k P (pure a : Get α) :=
  reports_of_run fun r => .inr ⟨a, r, rfl, rfl⟩

/-- A step that always fails complains of its one fault. -/
theorem reports_fail {e : WireError} (he : P e) : Reports k P (Attempt.fail e : Get α) :=
  reports_of_run fun r => .inl ⟨e, r, rfl, he⟩

/-- A verdict complains of the fault it is. -/
theorem reports_ofExcept {x : Except WireError α} (hx : ∀ e, x = .error e → P e) :
    Reports k P (Attempt.ofExcept x : Get α) := by
  cases x with
  | ok a => exact reports_pure a
  | error e => exact reports_fail (hx e rfl)

/-- **A sequence complains of what its steps complain of.** -/
theorem Reports.bind {f : α → Get β} (hg : g.Reports k P) (hf : ∀ a, (f a).Reports k P) :
    Reports k P (g >>= f) := by
  constructor
  · intro r e r' hroom h
    rcases Attempt.bind_error_iff.1 h with hfirst | ⟨a, t, hfirst, hsecond⟩
    · exact hg.fault hroom hfirst
    · exact (hf a).fault (hg.room_le hroom hfirst) hsecond
  · intro r b r' hroom h
    obtain ⟨a, t, hfirst, hsecond⟩ := Attempt.bind_ok_iff.1 h
    exact (hf a).room_le (hg.room_le hroom hfirst) hsecond

theorem Reports.map (f : α → β) (hg : g.Reports k P) :
    Reports k P (do return f (← g) : Get β) :=
  hg.bind fun a => reports_pure (f a)

/-! ### Bytes and numbers -/

/-- Asking for bytes complains of the end of the input. -/
theorem reports_need (n : Nat) : Reports k IsOfInput (need n) := by
  refine reports_of_run fun r => ?_
  unfold need
  split
  · exact .inr ⟨_, _, rfl, rfl⟩
  · exact .inl ⟨_, _, rfl, trivial⟩

theorem reports_take (n : Nat) : Reports k IsOfInput (take n) := by
  refine reports_of_run fun r => ?_
  unfold take
  split
  · exact .inr ⟨_, _, rfl, rfl⟩
  · exact .inl ⟨_, _, rfl, trivial⟩

/-- Padding is complained of where it is missing or is not zero. -/
theorem reports_padding (length : Nat) : Reports k IsOfInput (padding length) := by
  refine reports_of_run fun r => ?_
  unfold padding
  split
  · exact .inl ⟨_, _, rfl, trivial⟩
  · split
    · exact .inr ⟨_, _, rfl, rfl⟩
    · exact .inl ⟨_, _, rfl, trivial⟩

theorem reports_u32 : Reports k IsOfInput u32 := ((reports_take 4).map _).map _

theorem reports_i32 : Reports k IsOfInput i32 := reports_u32.map _

theorem reports_u64 : Reports k IsOfInput u64 := ((reports_take 8).map _).map _

theorem reports_i64 : Reports k IsOfInput i64 := reports_u64.map _

/-- A word that is no truth value is complained of as such. -/
theorem reports_bool : Reports k IsOfInput bool := by
  refine reports_u32.bind fun word => ?_
  split
  · exact reports_pure false
  · split
    · exact reports_pure true
    · exact reports_fail trivial

theorem reports_fixed (n : Nat) : Reports k IsOfInput (fixed n) := by
  refine (reports_take n).bind fun v => ?_
  exact (reports_padding n).bind fun _ => reports_pure v

/-- A string of bytes is complained of for its length, for its padding, or where it ends early. -/
theorem reports_bytes (max : UInt32) (kind : String) : Reports k IsOfInput (bytes max kind) := by
  refine reports_u32.bind fun length => ?_
  have hfixed : Reports k IsOfInput (do return (← fixed length.toNat).toList) :=
    (reports_fixed _).map _
  split
  · have hfail : Reports k IsOfInput (Attempt.fail (α := PUnit)
        (.malformed kind (.lengthAbove length.toNat max.toNat))) := reports_fail trivial
    exact hfail.bind fun _ => hfixed
  · exact hfixed

/-! ### Composite values -/

section Composite

variable (hP : ∀ e, IsOfInput e → P e)
include hP

/-- An optional value complains of its flag, or of what its content does. -/
theorem Reports.optional (hg : g.Reports k P) : g.optional.Reports k P := by
  refine (reports_bool.mono hP).bind fun b => ?_
  cases b with
  | true => exact hg.map some
  | false => exact reports_pure none

omit hP in
/-- A repetition complains of what its step does. -/
theorem Reports.times (hg : g.Reports k P) (n : Nat) : (g.times n).Reports k P := by
  induction n with
  | zero => exact reports_pure []
  | succ n ih => exact hg.bind fun a => ih.map (a :: ·)

/-- A list complains of its count, or of what one of its items does. -/
theorem Reports.array (hg : g.Reports k P) (max : UInt32) (kind : String) :
    (g.array max kind).Reports k P := by
  rw [array_eq]
  refine (reports_u32.mono hP).bind fun count => ?_
  split
  · exact reports_fail (hP _ trivial)
  · exact ((reports_need _).mono hP).bind fun _ => hg.times _

/-- Without a level left, a step one level further in is refused. -/
theorem reports_nested_zero (g : Get α) : g.nested.Reports 0 P := by
  constructor
  · rintro ⟨input, depth, limit⟩ e r' hroom h
    rw [nested_refused (Nat.le_zero.1 hroom)] at h
    cases h
    exact hP _ trivial
  · rintro ⟨input, depth, limit⟩ a r' hroom h
    rw [nested_refused (Nat.le_zero.1 hroom)] at h
    cases h

/-- **One level down** the step complains of what it did, or of the level itself. -/
theorem Reports.nested (hg : g.Reports k P) : g.nested.Reports (k + 1) P := by
  constructor
  · rintro ⟨input, depth, limit⟩ e r' hroom h
    unfold Reader.room at hroom
    by_cases hdepth : depth < limit
    · obtain ⟨t, hinner, -⟩ := (nested_apply_iff hdepth).1 h
      refine hg.fault ?_ hinner
      unfold Reader.room
      simp only at hroom ⊢
      omega
    · rw [nested_refused (by omega)] at h
      cases h
      exact hP _ trivial
  · rintro ⟨input, depth, limit⟩ a r' hroom h
    unfold Reader.room at hroom
    by_cases hdepth : depth < limit
    · obtain ⟨t, hinner, rfl⟩ := (nested_apply_iff hdepth).1 h
      have hroom' : t.room ≤ k := by
        refine hg.room_le ?_ hinner
        unfold Reader.room
        simp only at hroom ⊢
        omega
      unfold Reader.room at hroom' ⊢
      simp only
      omega
    · rw [nested_refused (by omega)] at h
      cases h

end Composite

end Get

namespace Codec

open Get (Reports)
open WireError (IsOfInput)

variable {α : Type} {P : WireError → Prop} {c : Codec α} {k limit : Nat} {f : α → Nat}
  {kind : String} {arms : List (Arm α)} {p : Bytes} {e : WireError}

/-- A union complains of a discriminant that it does not know, and of what its arms complain of. -/
theorem reports_union (hP : ∀ e, IsOfInput e → P e)
    (h : ∀ arm ∈ arms, arm.codec.get.Reports k P) : (union kind arms).get.Reports k P := by
  refine (Get.reports_i32.mono hP).bind fun tag => ?_
  split
  · rename_i arm hfound
    exact (h arm (List.mem_of_find?_eq_some hfound)).map arm.inject
  · exact Get.reports_fail (hP _ trivial)

/-- That something is no longer supported is found before the end of the input is looked for. -/
theorem decode_eq_unsupported_iff {what : String} :
    c.decode p limit = .error (.unsupported what)
      ↔ (c.get (.start p limit)).1 = .error (.unsupported what) := by
  rcases hget : c.get (.start p limit) with ⟨e | a, r⟩
  · rw [decode_of_get_error hget]
  · rw [decode_of_get hget]
    refine iff_of_false ?_ nofun
    intro h
    split at h
    · cases h
    · cases h

namespace Regular

/-- **A regular codec complains of its input, or that it stands for no value.** -/
theorem reports (h : Regular k c f) :
    c.get.Reports k fun e => e.IsOfInput ∨ e.IsRefusal := by
  have hP : ∀ e, IsOfInput e → e.IsOfInput ∨ e.IsRefusal := fun e => Or.inl
  induction h with
  | unit => exact Get.reports_pure ()
  | refused he => exact Get.reports_fail (.inr he)
  | u32 => exact Get.reports_u32.mono hP
  | u64 => exact Get.reports_u64.mono hP
  | fixed n => exact (Get.reports_fixed n).mono hP
  | bytes max kind _ => exact (Get.reports_bytes max kind).mono hP
  | both _ _ ihc ihd => exact ihc.bind fun a => ihd.map (a, ·)
  | view hview _ ih =>
      exact ih.bind fun a => Get.reports_ofExcept fun e he => .inr (hview.isRefusal he)
  | optional _ ih => exact ih.optional hP
  | array max kind _ _ _ ih => exact ih.array hP max kind
  | union kind _ _ _ _ _ ih => exact reports_union hP ih
  | blocked _ => exact Get.reports_nested_zero hP _
  | nested _ ih => exact ih.nested hP

/-- **What decoding a whole byte string complains of is the byte string.** -/
theorem isOfBytes_of_decode (h : Regular limit c f) (he : c.decode p limit = .error e) :
    e.IsOfBytes := by
  rcases hget : c.get (.start p limit) with ⟨e' | a, r⟩
  · rw [decode_of_get_error hget] at he
    cases he
    have hroom : (Reader.start p limit).room ≤ limit := Nat.sub_le _ _
    rcases h.reports.fault hroom hget with hinput | hrefusal
    · cases e <;> trivial
    · cases e <;> trivial
  · rw [decode_of_get hget] at he
    split at he
    · cases he
    · cases he
      trivial

end Regular

end Codec

end LedgerWire
