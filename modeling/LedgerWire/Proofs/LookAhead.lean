/-
# The look ahead is invisible

Before a list is read, its count is held against what is left to read: four bytes a value, and a
count that cannot be met is refused at once. A plain loop would read value after value and find out
later. Where a list is read at all, nobody can tell the two apart. It takes that every value takes
four bytes, of every type and at every depth; a type with an empty value would be read by the loop
and refused by the look ahead.

* `Get.TakesBlock` — a step that takes four bytes or more for every value.
* `TakesBlock.times` — so many steps take so many blocks.
* `Get.plainArray`, `TakesBlock.array_iff` — the plain loop, and why it reads the same lists.
* `Get.optional_congr` — the same behind a flag.
* `takesBlock_of_mem` — every type with a wire form.
* `look_ahead_invisible` — lists of every type, from every reader.
-/

import LedgerWire.Proofs.Programs
import LedgerWire.Proofs.Wire.Settling

namespace LedgerWire

namespace Get

variable {α : Type} {g g' : Get α} {r r' : Reader} {n : Nat}

/-! ### Values that take bytes -/

/-- Whatever the step gives, it takes four bytes for it, or more. -/
def TakesBlock (g : Get α) : Prop :=
  ∀ r a r', g r = (.ok a, r') → r'.unread.length + 4 ≤ r.unread.length

/-- **Whole blocks of bytes, and not none of them, are four bytes or more.** -/
theorem takesBlock_of_hungry (hg : ∀ room, g.Aligned room) (hungry : g.Hungry) :
    g.TakesBlock := by
  rintro ⟨input, depth, limit⟩ a r' h
  obtain ⟨front, rest, rfl, rfl, hreads, -⟩ := (hg (limit - depth)).split rfl h
  have hpos := List.length_pos_iff.2 (hungry.ne_nil hreads)
  have hdvd := (hg (limit - depth)).dvd_length hreads
  simp only [List.length_append]
  omega

/-- **So many values take so many blocks.** By induction on their number. -/
theorem TakesBlock.times (hg : g.TakesBlock) {as : List α} (h : g.times n r = (.ok as, r')) :
    r'.unread.length + 4 * n ≤ r.unread.length := by
  induction n generalizing r as with
  | zero =>
      obtain ⟨-, rfl⟩ : [] = as ∧ r = r' := by simpa [Get.times] using h
      exact Nat.le_refl _
  | succ n ih =>
      obtain ⟨a, s, hfirst, hrest⟩ := Attempt.bind_ok_iff.1 h
      obtain ⟨others, t, hothers, hlast⟩ := Attempt.bind_ok_iff.1 hrest
      obtain ⟨-, rfl⟩ : a :: others = as ∧ t = r' := by simpa using hlast
      have htaken := hg _ _ _ hfirst
      have htakenRest := ih hothers
      omega

/-- A count that the rest of the input cannot hold is never met. -/
theorem TakesBlock.times_ne_ok (hg : g.TakesBlock) (hshort : r.unread.length < 4 * n)
    (as : List α) (r' : Reader) : g.times n r ≠ (.ok as, r') := by
  intro h
  have htaken := hg.times h
  omega

/-! ### The plain loop -/

/-- Values behind their number, which may be `max` at most, with no look at what is left. -/
def plainArray (max : UInt32) (kind : String) (value : Get α) : Get (List α) := do
  let count ← u32
  if max < count then Attempt.fail (.malformed kind (.countAbove count.toNat max.toNat))
  else times value count.toNat

/-- **Where values take bytes, the look ahead is invisible**: the loop reads the same lists, and
leaves the same. -/
theorem TakesBlock.array_iff (hg : g.TakesBlock) {max : UInt32} {kind : String} {as : List α} :
    g.array max kind r = (.ok as, r') ↔ plainArray max kind g r = (.ok as, r') := by
  have hcounted (count : UInt32) (s : Reader) :
      counted g count.toNat s = (.ok as, r') ↔ g.times count.toNat s = (.ok as, r') := by
    rw [counted_apply]
    refine and_iff_right_of_imp fun h => ?_
    have htaken := hg.times h
    omega
  rw [array_eq, plainArray, Attempt.bind_ok_iff, Attempt.bind_ok_iff]
  refine exists_congr fun count => exists_congr fun s => and_congr_right fun _ => ?_
  by_cases hmax : max < count
  · simp [hmax]
  · rw [if_neg hmax, if_neg hmax]
    exact hcounted count s

/-- Steps that read the same do so behind a flag. -/
theorem optional_congr (h : ∀ r a r', g r = (.ok a, r') ↔ g' r = (.ok a, r')) {o : Option α} :
    g.optional r = (.ok o, r') ↔ g'.optional r = (.ok o, r') := by
  unfold optional
  rw [Attempt.bind_ok_iff, Attempt.bind_ok_iff]
  refine exists_congr fun present => exists_congr fun s => and_congr_right fun _ => ?_
  cases present with
  | false => exact Iff.rfl
  | true => simp only [if_true, Attempt.bind_ok_iff, h]

end Get

/-! ### Every type -/

variable {t : DataType}

/-- **Values of every type take four bytes or more**, at every depth. -/
theorem takesBlock_of_mem (ht : t ∈ wireTypes) : t.schema.wire.get.TakesBlock := by
  rw [← map_type_measuredTypes] at ht
  obtain ⟨x, hx, rfl⟩ := List.mem_map.1 ht
  exact Get.takesBlock_of_hungry (fun room => (x.regular room).aligned (Nat.le_refl room))
    (MeasuredType.hungry hx)

/-- **The look ahead is invisible.** A value of any type with a wire form, read from any reader,
takes four bytes or more off its front. So a count that would need more bytes than there are is
never met, and a list, behind a flag or not, is read exactly if the plain loop reads it, which
leaves the same. -/
theorem look_ahead_invisible (ht : t ∈ wireTypes) :
    (∀ r v r', t.schema.wire.get r = (.ok v, r') →
      r.Ahead r' ∧ r'.unread.length + 4 ≤ r.unread.length)
    ∧ (∀ n r, r.unread.length < 4 * n → ∀ items r', t.schema.wire.get.times n r ≠ (.ok items, r'))
    ∧ (∀ max kind r items r', t.schema.wire.get.array max kind r = (.ok items, r')
      ↔ Get.plainArray max kind t.schema.wire.get r = (.ok items, r'))
    ∧ ∀ max kind r items r', (t.schema.wire.get.array max kind).optional r = (.ok items, r')
      ↔ (Get.plainArray max kind t.schema.wire.get).optional r = (.ok items, r') := by
  have htakes := takesBlock_of_mem ht
  obtain ⟨nesting, hregular⟩ := regular_of_mem_wireTypes ht
  refine ⟨fun r v r' h => ⟨?_, htakes r v r' h⟩, fun n r => htakes.times_ne_ok,
    fun max kind r items r' => htakes.array_iff, fun max kind r items r' => ?_⟩
  · have hahead := (hregular r.room).settles r (Nat.le_refl _)
    rwa [h] at hahead
  · exact Get.optional_congr fun r items r' => htakes.array_iff

/-- Two empty contract values in eight bytes, where no three could be. -/
theorem look_ahead_invisible_values :
    Get.plainArray Limits.unbounded "ScVec" ScVal.schema.wire.get
        (.start [0, 0, 0, 2, 0, 0, 0, 1, 0, 0, 0, 1])
      = (.ok [.void, .void], .start [])
    ∧ ∀ items r', ScVal.schema.wire.get.times 3 (.start [0, 0, 0, 1, 0, 0, 0, 1])
      ≠ (.ok items, r') := by
  have hname : DataType.ofName? "ScVal" = some ⟨"ScVal", ScVal, ScVal.schema⟩ := rfl
  have hmem := List.mem_cons_of_mem sponsorSlot (List.mem_of_find?_eq_some hname)
  obtain ⟨-, hnever, harray, -⟩ := look_ahead_invisible hmem
  have hread : ScVal.schema.wire.get.array Limits.unbounded "ScVec"
      (.start [0, 0, 0, 2, 0, 0, 0, 1, 0, 0, 0, 1]) = (.ok [.void, .void], .start []) := rfl
  exact ⟨(harray ..).1 hread, hnever 3 _ (by decide)⟩

end LedgerWire
