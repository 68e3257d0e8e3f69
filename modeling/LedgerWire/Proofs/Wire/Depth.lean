/-
# The limit on nesting

A reader refuses to go deeper than its limit, and that is all the limit does: a step under a low
limit ends with this refusal, or it ends as it would under any higher one, with the same bytes left.
So a value is read under exactly those limits that its nesting does not exceed.

* `Get.Follows`, `Get.Transparent` — the two endings, and the steps that have no third.
* `Regular.transparent` — regular codecs read in such steps.
* `Regular.get_of_encode`, `Regular.get_of_encode_deep` — what was written is read, or refused for
  its nesting.
* `Regular.nesting_le_of_get` — whatever the bytes, what is read fits the room of the reader.
* `Regular.hungry` — one run on an empty input shows that no value is read from nothing.
-/

import LedgerWire.Proofs.Wire.Regular

namespace LedgerWire

namespace Get

variable {α β : Type} {k : Nat}

/-- What a step does under a low limit, beside what it does under a high one: it refuses to go
deeper, or both end alike and leave the same bytes. -/
inductive Follows (depth limit limit' : Nat) :
    Except WireError α × Reader → Except WireError α × Reader → Prop where
  | refused (r : Reader) (high : Except WireError α × Reader) :
      Follows depth limit limit' (.error (.depthLimitExceeded limit), r) high
  | same (result : Except WireError α) (rest : Bytes) :
      Follows depth limit limit' (result, ⟨rest, depth, limit⟩) (result, ⟨rest, depth, limit'⟩)

/-- Down to so many levels, a lower limit changes nothing but what is refused over it. -/
def Transparent (k : Nat) (g : Get α) : Prop :=
  ∀ (depth limit limit' : Nat) (input : Bytes), limit ≤ limit' → limit' - depth ≤ k →
    Follows depth limit limit' (g ⟨input, depth, limit⟩) (g ⟨input, depth, limit'⟩)

/-! ### Steps that do not count levels -/

/-- A step that reads nothing does not look at the limit. -/
theorem transparent_pure (a : α) : Transparent k (pure a : Get α) :=
  fun _ _ _ input _ _ => .same (.ok a) input

theorem transparent_fail (e : WireError) : Transparent k (Attempt.fail e : Get α) :=
  fun _ _ _ input _ _ => .same (.error e) input

theorem transparent_ofExcept (x : Except WireError α) :
    Transparent k (Attempt.ofExcept x : Get α) := by
  cases x with
  | ok a => exact transparent_pure a
  | error e => exact transparent_fail e

/-- Asking for bytes does not look at the limit. -/
theorem transparent_need (n : Nat) : Transparent k (need n) := by
  intro depth limit limit' input _ _
  unfold need
  by_cases h : Bytes.hasAtLeast n input = true
  · simp only [h, if_true]
    exact .same (.ok ()) input
  · simp only [h]
    exact .same _ input

/-- Nor does taking them. -/
theorem transparent_take (n : Nat) : Transparent k (take n) := by
  intro depth limit limit' input _ _
  unfold take
  cases hcut : Bytes.cut? n input with
  | none => exact .same _ input
  | some cut =>
      obtain ⟨front, rest⟩ := cut
      exact .same (.ok front) rest

/-- Nor does passing the padding behind them. -/
theorem transparent_padding (length : Nat) : Transparent k (padding length) := by
  intro depth limit limit' input _ _
  unfold padding
  cases hcut : Bytes.cut? (paddingFor length) input with
  | none => exact .same _ input
  | some cut =>
      obtain ⟨front, rest⟩ := cut
      by_cases hz : front.toList.all (· == 0) = true
      · simp only [hz, if_true]
        exact .same (.ok ()) rest
      · simp only [hz]
        exact .same _ input

/-! ### Steps put together -/

/-- **A sequence of transparent steps is transparent**: where the first step ended alike, the second
starts from the same bytes. -/
theorem Transparent.bind {g : Get α} {f : α → Get β} (hg : g.Transparent k)
    (hf : ∀ a, (f a).Transparent k) : Transparent k (g >>= f) := by
  intro depth limit limit' input hle hk
  have hfirst := hg depth limit limit' input hle hk
  rw [Attempt.bind_apply, Attempt.bind_apply]
  generalize g ⟨input, depth, limit⟩ = low at hfirst ⊢
  generalize g ⟨input, depth, limit'⟩ = high at hfirst ⊢
  cases hfirst with
  | refused r => exact .refused r _
  | same result rest =>
      cases result with
      | ok a => exact hf a depth limit limit' rest hle hk
      | error e => exact .same (.error e) rest

theorem Transparent.map {g : Get α} (f : α → β) (hg : g.Transparent k) :
    Transparent k (do return f (← g) : Get β) :=
  hg.bind fun a => transparent_pure (f a)

theorem transparent_number (width : Nat) : Transparent k (number width) :=
  (transparent_take width).map fun v => Bytes.toNat v.toList

theorem transparent_u32 : Transparent k u32 := (transparent_number 4).map UInt32.ofNat

theorem transparent_u64 : Transparent k u64 := (transparent_number 8).map UInt64.ofNat

theorem transparent_i32 : Transparent k i32 := transparent_u32.map UInt32.toInt32

theorem transparent_bool : Transparent k bool := by
  refine transparent_u32.bind fun word => ?_
  split
  · exact transparent_pure false
  · split
    · exact transparent_pure true
    · exact transparent_fail _

theorem transparent_fixed (n : Nat) : Transparent k (fixed n) :=
  (transparent_take n).bind fun v => (transparent_padding n).bind fun _ => transparent_pure v

theorem transparent_bytes (max : UInt32) (kind : String) : Transparent k (bytes max kind) := by
  refine transparent_u32.bind fun length => ?_
  have hfixed : Transparent k (do return (← fixed length.toNat).toList) :=
    (transparent_fixed _).map _
  split
  · exact (transparent_fail _).bind fun _ => hfixed
  · exact hfixed

/-- An optional value is transparent if what may be there is. -/
theorem Transparent.optional {g : Get α} (hg : g.Transparent k) : Transparent k g.optional := by
  refine transparent_bool.bind fun b => ?_
  cases b with
  | true => exact hg.map some
  | false => exact transparent_pure none

/-- A repetition is transparent if its step is, by induction on the count. -/
theorem Transparent.times {g : Get α} (hg : g.Transparent k) : ∀ n, Transparent k (g.times n)
  | 0 => transparent_pure []
  | n + 1 => hg.bind fun a => (hg.times n).map (a :: ·)

/-- A list is transparent if its items are. -/
theorem Transparent.array {g : Get α} (hg : g.Transparent k) (max : UInt32) (kind : String) :
    Transparent k (g.array max kind) := by
  refine transparent_u32.bind fun count => ?_
  have hrest : Transparent k (do need (4 * count.toNat); g.times count.toNat) :=
    (transparent_need _).bind fun _ => hg.times _
  split
  · exact (transparent_fail _).bind fun _ => hrest
  · exact hrest

/-! ### One level further in -/

/-- Without a level left, both limits refuse. -/
theorem transparent_nested_zero (g : Get α) : Transparent 0 g.nested := by
  intro depth limit limit' input hle hk
  rw [nested_refused (by omega)]
  exact .refused _ _

/-- **The limit counts a level here and nowhere else.** The low limit refuses the value, or both
limits go in, and out again at the depth they came from. -/
theorem Transparent.nested {g : Get α} (hg : g.Transparent k) :
    Transparent (k + 1) g.nested := by
  intro depth limit limit' input hle hk
  by_cases hroom : depth < limit
  · have hinner := hg (depth + 1) limit limit' input hle (by omega)
    unfold Get.nested
    rw [if_neg (Nat.not_le.2 hroom), if_neg (by simp only; omega)]
    generalize g ⟨input, depth + 1, limit⟩ = low at hinner ⊢
    generalize g ⟨input, depth + 1, limit'⟩ = high at hinner ⊢
    cases hinner with
    | refused r => exact .refused _ _
    | same result rest => exact .same result rest
  · rw [nested_refused (by omega)]
    exact .refused _ _

end Get

namespace Codec

open Get (Transparent Follows)

variable {α : Type} {c : Codec α} {k limit limit' : Nat} {f : α → Nat} {a : α} {p : Bytes}

/-! ### Regular codecs -/

namespace Regular

/-- **Reading what a regular codec wrote, or anything else, is transparent.** -/
theorem transparent (h : Regular k c f) : c.get.Transparent k := by
  induction h with
  | unit => exact Get.transparent_pure ()
  | refused _ => exact Get.transparent_fail _
  | u32 => exact Get.transparent_u32
  | u64 => exact Get.transparent_u64
  | fixed n => exact Get.transparent_fixed n
  | bytes max kind _ => exact Get.transparent_bytes max kind
  | both _ _ ihc ihd => exact ihc.bind fun a => ihd.map (a, ·)
  | view _ _ ih => exact ih.bind fun a => Get.transparent_ofExcept _
  | optional _ ih => exact ih.optional
  | array max kind _ _ _ ih => exact ih.array max kind
  | union kind _ _ _ _ _ ih =>
      refine Get.transparent_i32.bind fun tag => ?_
      split
      · rename_i arm hfound
        exact (ih arm (List.mem_of_find?_eq_some hfound)).map arm.inject
      · exact Get.transparent_fail _
  | blocked _ => exact Get.transparent_nested_zero _
  | nested _ ih => exact ih.nested

/-- The two endings, for a reader at the start of its input. -/
theorem get_start (h : Regular limit' c f) (hle : limit ≤ limit') (input : Bytes) :
    (c.get (.start input limit)).1 = .error (.depthLimitExceeded limit)
      ∨ ((c.get (.start input limit)).1 = (c.get (.start input limit')).1
        ∧ (c.get (.start input limit)).2.unread = (c.get (.start input limit')).2.unread) := by
  have hfollows := h.transparent 0 limit limit' input hle (Nat.le_refl _)
  unfold Reader.start
  generalize c.get ⟨input, 0, limit⟩ = low at hfollows ⊢
  generalize c.get ⟨input, 0, limit'⟩ = high at hfollows ⊢
  cases hfollows with
  | refused r => exact .inl rfl
  | same result rest => exact .inr ⟨rfl, rfl⟩

/-- **Whatever the bytes, what is read fits the room of the reader.** -/
theorem nesting_le_of_get {r r' : Reader} (h : ∀ k, Regular k c f)
    (hget : c.get r = (.ok a, r')) : f a ≤ r.room := by
  have hframed := ((h r.room).aligned (Nat.le_refl _)).toFramed
  obtain ⟨front, rest, -, -, hreads, -⟩ := hframed.split rfl hget
  exact (h r.room).nesting_le (Nat.le_refl _) hreads

/-- **What was written is read**, and nothing is left, under a limit that it fits. -/
theorem get_of_encode (h : Regular limit c f) (ha : f a ≤ limit) (hp : c.encode a = .ok p) :
    c.get (.start p limit) = (.ok a, .start [] limit) := by
  have hwrites := (encode_eq_ok_iff (h.steady ha)).1 hp
  have hreads := h.reads_of_writes (Nat.le_refl _) ha hwrites
  have hget := hreads 0 limit [] (Nat.sub_zero limit)
  rwa [List.append_nil] at hget

/-- **What was written is refused for its nesting** under any lower limit. Under a limit of exactly
its nesting it is read, so a lower limit that did not refuse it would read it too; but what is read
is within the limit. -/
theorem get_of_encode_deep (h : ∀ k, Regular k c f) (ha : limit < f a) (hp : c.encode a = .ok p) :
    (c.get (.start p limit)).1 = .error (.depthLimitExceeded limit) := by
  have hhigh : c.get (.start p (f a)) = (.ok a, .start [] (f a)) :=
    (h (f a)).get_of_encode (Nat.le_refl _) hp
  rcases (h (f a)).get_start (Nat.le_of_lt ha) p with hrefused | ⟨hsame, -⟩
  · exact hrefused
  · have hlow : c.get (.start p limit) = (.ok a, (c.get (.start p limit)).2) := by
      rw [hhigh] at hsame
      exact Prod.ext hsame rfl
    have hle : f a ≤ limit := nesting_le_of_get h hlow
    omega

end Regular

/-! ### Values take bytes -/

/-- The codec looks for bytes before it goes two levels in. -/
def asksForBytes (c : Codec α) : Bool :=
  match (c.get (.start [] 1)).1 with
  | .error (.unexpectedEnd _ _) => true
  | _ => false

/-- **One run on an empty input settles that no value is read from nothing.** The limit of that run
is one level, and a higher limit changes only what was refused for its depth. -/
theorem Regular.hungry (h : ∀ k, Regular k c f) (hasks : c.asksForBytes = true) :
    c.get.Hungry := by
  intro depth limit
  cases hget : c.get ⟨[], depth, limit⟩ with
  | mk result r =>
      cases result with
      | error e => exact ⟨e, r, rfl⟩
      | ok a =>
          exfalso
          have hframed := ((h (limit - depth)).aligned (Nat.le_refl _)).toFramed
          obtain ⟨p, rest, hsplit, -, hreads, -⟩ := hframed.split rfl hget
          obtain ⟨rfl, rfl⟩ := List.append_eq_nil_iff.1 hsplit.symm
          have hok : c.get (.start [] (limit - depth)) = (.ok a, .start [] (limit - depth)) :=
            hframed.reads_iff.1 hreads
          unfold asksForBytes at hasks
          rcases Nat.le_total 1 (limit - depth) with hle | hle
          · rcases (h (limit - depth)).get_start hle [] with hrefused | ⟨hsame, -⟩
            · simp [hrefused] at hasks
            · simp [hsame, hok] at hasks
          · rcases (h 1).get_start hle [] with hrefused | ⟨hsame, -⟩
            · simp [hok] at hrefused
            · simp [← hsame, hok] at hasks

end Codec

end LedgerWire
