/-
# Where a step leaves its reader

A step moves a reader on in its input, and does nothing else to it: whether it gives a value or a
fault, and however deep inside nested values the fault was found, the reader is back at the depth it
came from, keeps its limit, and what is left to read is a piece of what was left before.

* `Reader.Ahead` — a reader, and the same reader further on.
* `Get.Settles` — the step moves every reader ahead; one rule a step, as in
  `LedgerWire.Proofs.Wire.Steps`.
* `Regular.settles` — regular codecs read in such steps.
* `Get.FaultsInPlace` — where the step gives a fault it has not moved at all.
-/

import LedgerWire.Proofs.Wire.Regular

namespace LedgerWire

/-- The second reader is the first one further on in its input, and as deep as it. -/
structure Reader.Ahead (r r' : Reader) : Prop where
  depth_eq : r'.depth = r.depth
  limit_eq : r'.limit = r.limit
  suffix : r'.unread <:+ r.unread

namespace Reader.Ahead

variable {r r' r'' : Reader}

/-- A reader is where it is. -/
theorem refl (r : Reader) : r.Ahead r := ⟨rfl, rfl, List.suffix_refl _⟩

/-- Ahead of what is ahead is ahead. -/
theorem trans (h : r.Ahead r') (h' : r'.Ahead r'') : r.Ahead r'' where
  depth_eq := h'.depth_eq.trans h.depth_eq
  limit_eq := h'.limit_eq.trans h.limit_eq
  suffix := h'.suffix.trans h.suffix

/-- Moving on in the input leaves the room as it is. -/
theorem room_eq (h : r.Ahead r') : r'.room = r.room := by
  unfold room
  rw [h.depth_eq, h.limit_eq]

/-- Some bytes were cut off the front. -/
theorem of_append {input front rest : Bytes} {depth limit : Nat} (h : input = front ++ rest) :
    Reader.Ahead ⟨input, depth, limit⟩ ⟨rest, depth, limit⟩ :=
  ⟨rfl, rfl, front, h.symm⟩

/-- Between the steps of a program a reader is one that starts on what is left. -/
theorem eq_start {input : Bytes} {limit : Nat} (h : (start input limit).Ahead r) :
    r = start r.unread limit := by
  obtain ⟨unread, depth, limit'⟩ := r
  obtain rfl : depth = 0 := h.depth_eq
  obtain rfl : limit' = limit := h.limit_eq
  rfl

end Reader.Ahead

namespace Get

variable {α β : Type} {k : Nat} {g : Get α}

/-- Where there is room for `k` levels at most, the step moves its reader ahead, whatever comes
of it. -/
def Settles (k : Nat) (g : Get α) : Prop := ∀ r : Reader, r.room ≤ k → r.Ahead (g r).2

/-! ### Steps put together -/

/-- A step that reads nothing stays where it is. -/
theorem settles_pure (a : α) : Settles k (pure a : Get α) := fun r _ => .refl r

/-- A step that fails at once stays where it is. -/
theorem settles_fail (e : WireError) : Settles k (Attempt.fail e : Get α) := fun r _ => .refl r

theorem settles_ofExcept (x : Except WireError α) : Settles k (Attempt.ofExcept x : Get α) := by
  cases x with
  | ok a => exact settles_pure a
  | error e => exact settles_fail e

/-- **A sequence settles where its steps do**: after a fault that is where the first step ended. -/
theorem Settles.bind {f : α → Get β} (hg : g.Settles k) (hf : ∀ a, (f a).Settles k) :
    Settles k (g >>= f) := by
  intro r hroom
  have hfirst := hg r hroom
  rw [Attempt.bind_apply]
  rcases hrun : g r with ⟨e | a, t⟩
  · rw [hrun] at hfirst
    exact hfirst
  · rw [hrun] at hfirst
    have hsecond := hf a t (by rw [hfirst.room_eq]; exact hroom)
    exact hfirst.trans hsecond

theorem Settles.map (f : α → β) (hg : g.Settles k) : Settles k (do return f (← g) : Get β) :=
  hg.bind fun a => settles_pure (f a)

/-! ### Bytes and numbers -/

/-- Asking for bytes takes none, whether they are there or not. -/
theorem settles_need (n : Nat) : Settles k (need n) := by
  intro r _
  unfold need
  split
  · exact .refl r
  · exact .refl r

/-- Asking for the end takes nothing. -/
theorem settles_finish : Settles k finish := by
  intro r _
  unfold finish
  split
  · exact .refl r
  · exact .refl r

/-- Taking bytes moves past them, or stays where they are missing. -/
theorem settles_take (n : Nat) : Settles k (take n) := by
  intro r _
  unfold take
  split
  · rename_i front rest hcut
    exact .of_append (Bytes.cut?_eq_some_iff.1 hcut)
  · exact .refl r

/-- Padding is passed once it was looked at, and left where it is if it is wrong. -/
theorem settles_padding (length : Nat) : Settles k (padding length) := by
  intro r _
  unfold padding
  split
  · exact .refl r
  · rename_i zeros rest hcut
    split
    · exact .of_append (Bytes.cut?_eq_some_iff.1 hcut)
    · exact .refl r

theorem settles_u32 : Settles k u32 := ((settles_take 4).map _).map _

theorem settles_i32 : Settles k i32 := settles_u32.map _

theorem settles_u64 : Settles k u64 := ((settles_take 8).map _).map _

theorem settles_bool : Settles k bool := by
  refine settles_u32.bind fun word => ?_
  split
  · exact settles_pure false
  · split
    · exact settles_pure true
    · exact settles_fail _

theorem settles_fixed (n : Nat) : Settles k (fixed n) := by
  refine (settles_take n).bind fun v => ?_
  exact (settles_padding n).bind fun _ => settles_pure v

theorem settles_bytes (max : UInt32) (kind : String) : Settles k (bytes max kind) := by
  refine settles_u32.bind fun length => ?_
  have hfixed : Settles k (do return (← fixed length.toNat).toList) := (settles_fixed _).map _
  split
  · exact (settles_fail _).bind fun _ => hfixed
  · exact hfixed

/-! ### Composite values -/

/-- An optional value settles if what may be there does. -/
theorem Settles.optional (hg : g.Settles k) : g.optional.Settles k := by
  refine settles_bool.bind fun present => ?_
  cases present with
  | true => exact hg.map some
  | false => exact settles_pure none

/-- A repetition settles if its step does, by induction on the count. -/
theorem Settles.times (hg : g.Settles k) (n : Nat) : (g.times n).Settles k := by
  induction n with
  | zero => exact settles_pure []
  | succ n ih => exact hg.bind fun a => ih.map (a :: ·)

/-- A list settles if its items do. -/
theorem Settles.array (hg : g.Settles k) (max : UInt32) (kind : String) :
    (g.array max kind).Settles k := by
  rw [array_eq]
  refine settles_u32.bind fun count => ?_
  split
  · exact settles_fail _
  · exact (settles_need _).bind fun _ => hg.times _

/-- A slot settles if what fills it does. -/
theorem Settles.extension (hg : g.Settles k) (version : Int32) (kind : String) :
    (g.extension version kind).Settles k := by
  refine settles_i32.bind fun word => ?_
  split
  · exact settles_pure none
  · split
    · exact hg.map some
    · exact settles_fail _

/-! ### One level further in -/

/-- With no room one level down is refused at once. -/
theorem settles_nested_zero (g : Get α) : g.nested.Settles 0 := by
  rintro ⟨input, depth, limit⟩ hroom
  rw [nested_refused (Nat.le_zero.1 hroom)]
  exact .refl _

/-- **A level that was entered is left again**, whatever came of the step inside it. -/
theorem Settles.nested (hg : g.Settles k) : g.nested.Settles (k + 1) := by
  rintro ⟨input, depth, limit⟩ hroom
  unfold Reader.room at hroom
  by_cases hdepth : depth < limit
  · have hinner : Reader.Ahead ⟨input, depth + 1, limit⟩ (g ⟨input, depth + 1, limit⟩).2 := by
      refine hg _ ?_
      unfold Reader.room
      simp only at hroom ⊢
      omega
    rcases hrun : g ⟨input, depth + 1, limit⟩ with ⟨result, t⟩
    rw [hrun] at hinner
    rw [(nested_apply_iff hdepth).2 ⟨t, hrun, rfl⟩]
    refine ⟨?_, hinner.limit_eq, hinner.suffix⟩
    have hdeeper : t.depth = depth + 1 := hinner.depth_eq
    show t.depth - 1 = depth
    omega
  · rw [nested_refused (by omega)]
    exact .refl _

/-! ### Faults in place -/

/-- Where the step gives a fault, the reader is as it was. -/
def FaultsInPlace (g : Get α) : Prop := ∀ r e r', g r = (.error e, r') → r' = r

/-- Where bytes are missing none are taken. -/
theorem faultsInPlace_take (n : Nat) : FaultsInPlace (take n) := by
  intro r e r' h
  unfold take at h
  split at h
  · cases h
  · cases h
    rfl

/-- What is done with a value once it is read cannot fail. -/
theorem FaultsInPlace.map (f : α → β) (hg : g.FaultsInPlace) :
    FaultsInPlace (do return f (← g) : Get β) := by
  intro r e r' h
  rcases Attempt.bind_error_iff.1 h with hfirst | ⟨a, t, -, hpure⟩
  · exact hg r e r' hfirst
  · cases hpure

theorem faultsInPlace_u32 : FaultsInPlace u32 := ((faultsInPlace_take 4).map _).map _

theorem faultsInPlace_i32 : FaultsInPlace i32 := faultsInPlace_u32.map _

theorem faultsInPlace_u64 : FaultsInPlace u64 := ((faultsInPlace_take 8).map _).map _

theorem faultsInPlace_i64 : FaultsInPlace i64 := faultsInPlace_u64.map _

end Get

namespace Codec

variable {α : Type} {c : Codec α} {k : Nat} {f : α → Nat}

/-- **Reading what obeys the rules moves a reader ahead**, on any bytes and whatever comes of it. -/
theorem Regular.settles (h : Regular k c f) : c.get.Settles k := by
  induction h with
  | unit => exact Get.settles_pure ()
  | refused _ => exact Get.settles_fail _
  | u32 => exact Get.settles_u32
  | u64 => exact Get.settles_u64
  | fixed n => exact Get.settles_fixed n
  | bytes max kind _ => exact Get.settles_bytes max kind
  | both _ _ ihc ihd => exact ihc.bind fun a => ihd.map (a, ·)
  | view _ _ ih => exact ih.bind fun a => Get.settles_ofExcept _
  | optional _ ih => exact ih.optional
  | array max kind _ _ _ ih => exact ih.array max kind
  | union kind _ _ _ _ _ ih =>
      refine Get.settles_i32.bind fun tag => ?_
      split
      · rename_i arm hfound
        exact (ih arm (List.mem_of_find?_eq_some hfound)).map arm.inject
      · exact Get.settles_fail _
  | blocked _ => exact Get.settles_nested_zero _
  | nested _ ih => exact ih.nested

end Codec

end LedgerWire
