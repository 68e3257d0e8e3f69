/-
# What a step of reading takes

A step looks only at the bytes it takes, and it always takes the same ones for the same value. This
module says so without naming a format. `room` is how many recursive values the reader may still
enter; a step may depend on it and on nothing else of the reader but the bytes.

* `Get.Reads` — the step gives a value and takes exactly these bytes, whatever follows them.
* `Get.Starves` — on every shorter input the step reports the end of the input.
* `Get.Framed` — both hold of every value that the step gives.
* `Framed.bind` — framed steps put together are framed.
* `Reads.bind_iff` — the bytes of a sequence are those of its steps, joined.
* `Cuts` — a step that takes a number of bytes off the front; `cuts_take` and `cuts_padding` are the
  two that all others are made of.
-/

import LedgerWire.Wire.Codec

namespace LedgerWire.Get

variable {α β : Type} {room : Nat}

/-- With so much room the step gives `a` and takes exactly `bytes`, whatever follows them. -/
def Reads (room : Nat) (g : Get α) (bytes : Bytes) (a : α) : Prop :=
  ∀ depth limit rest, limit - depth = room →
    g ⟨bytes ++ rest, depth, limit⟩ = (.ok a, ⟨rest, depth, limit⟩)

/-- With so much room, and less than `bytes` to read, the step asks for more than there is. -/
def Starves (room : Nat) (g : Get α) (bytes : Bytes) : Prop :=
  ∀ q, q <+: bytes → q ≠ bytes → ∀ depth limit, limit - depth = room →
    ∃ needed remaining r, remaining < needed ∧
      g ⟨q, depth, limit⟩ = (.error (.unexpectedEnd needed remaining), r)

/-- Whatever the step gives, it gives for the bytes in front, and for nothing less. -/
structure Framed (room : Nat) (g : Get α) : Prop where
  split : ∀ {input depth limit a r}, limit - depth = room → g ⟨input, depth, limit⟩ = (.ok a, r) →
    ∃ bytes rest, input = bytes ++ rest ∧ r = ⟨rest, depth, limit⟩
      ∧ g.Reads room bytes a ∧ g.Starves room bytes

/-- The step gives nothing on an empty input. -/
def Hungry (g : Get α) : Prop :=
  ∀ depth limit, ∃ e r, g ⟨[], depth, limit⟩ = (.error e, r)

/-! ### Reading alone -/

/-- What a framed step takes in front of a rest is what it reads. -/
theorem Framed.reads_of_eq {g : Get α} (hg : g.Framed room) {bytes rest : Bytes}
    {depth limit : Nat} {a : α} (hroom : limit - depth = room)
    (h : g ⟨bytes ++ rest, depth, limit⟩ = (.ok a, ⟨rest, depth, limit⟩)) :
    g.Reads room bytes a := by
  obtain ⟨p, rest', hsplit, hreader, hreads, -⟩ := hg.split hroom h
  obtain rfl : rest' = rest := by simpa using hreader.symm
  rwa [List.append_cancel_right hsplit]

/-- **A framed step reads what it takes from a whole input.** -/
theorem Framed.reads_iff {g : Get α} (hg : g.Framed room) {bytes : Bytes} {a : α} :
    g.Reads room bytes a ↔ g ⟨bytes, 0, room⟩ = (.ok a, ⟨[], 0, room⟩) := by
  constructor
  · intro h
    simpa using h 0 room [] (by omega)
  · intro h
    have hrest : g ⟨bytes ++ [], 0, room⟩ = (.ok a, ⟨[], 0, room⟩) := by simpa using h
    exact hg.reads_of_eq (Nat.sub_zero room) hrest

/-- A step starves on less than it takes. -/
theorem Framed.starves {g : Get α} (hg : g.Framed room) {bytes : Bytes} {a : α}
    (h : g.Reads room bytes a) : g.Starves room bytes := by
  obtain ⟨p, rest, hsplit, hreader, -, hstarves⟩ :=
    hg.split (by omega) (h 0 room [] (Nat.sub_zero room))
  obtain rfl : rest = [] := by simpa using hreader.symm
  rwa [List.append_cancel_right hsplit]

/-- A step that gives nothing on an empty input reads no value from nothing. -/
theorem Hungry.ne_nil {g : Get α} (hg : g.Hungry) {bytes : Bytes} {a : α}
    (h : g.Reads room bytes a) : bytes ≠ [] := by
  rintro rfl
  obtain ⟨e, r, he⟩ := hg 0 room
  have := (h 0 room [] (by omega)).symm.trans he
  simp at this

/-! ### Steps put together -/

/-- A step that takes nothing frames the empty string. -/
theorem framed_pure (a : α) : Framed room (pure a : Get α) := by
  refine ⟨fun {input depth limit b r} _ h => ?_⟩
  obtain ⟨rfl, rfl⟩ : a = b ∧ (⟨input, depth, limit⟩ : Reader) = r := by simpa using h
  refine ⟨[], input, rfl, rfl, fun _ _ _ _ => rfl, fun q hq hne => ?_⟩
  exact absurd (List.prefix_nil.1 hq) hne

/-- A step that fails has nothing to frame. -/
theorem framed_fail (e : WireError) : Framed room (Attempt.fail e : Get α) :=
  ⟨fun _ h => by simp at h⟩

/-- A prefix of two byte strings joined stops inside the first, or takes it whole and stops inside
the second. -/
private theorem proper_prefix_append {p q s : Bytes} (h : q <+: p ++ s) (hne : q ≠ p ++ s) :
    (q <+: p ∧ q ≠ p) ∨ ∃ q', q = p ++ q' ∧ q' <+: s ∧ q' ≠ s := by
  rcases List.prefix_or_prefix_of_prefix h (List.prefix_append p s) with hp | ⟨q', rfl⟩
  · by_cases hqp : q = p
    · subst hqp
      exact .inr ⟨[], by simp, List.nil_prefix, fun hs => hne (by simp [← hs])⟩
    · exact .inl ⟨hp, hqp⟩
  · exact .inr ⟨q', rfl, (List.prefix_append_right_inj p).1 h, fun hs => hne (by rw [hs])⟩

/-- **Framed steps in sequence are framed.** The second step may depend on what the first gave. -/
theorem Framed.bind {g : Get α} {f : α → Get β} (hg : g.Framed room)
    (hf : ∀ a, (f a).Framed room) : Framed room (g >>= f) := by
  refine ⟨fun {input depth limit b r} hroom h => ?_⟩
  obtain ⟨a, t, hga, hfb⟩ := Attempt.bind_ok_iff.1 h
  obtain ⟨p, rest, rfl, rfl, hreads, hstarves⟩ := hg.split hroom hga
  obtain ⟨p', rest', rfl, rfl, hreads', hstarves'⟩ := (hf a).split hroom hfb
  refine ⟨p ++ p', rest', by simp, rfl, ?_, ?_⟩
  · intro depth limit rest hroom
    refine Attempt.bind_ok_iff.2 ⟨a, ⟨p' ++ rest, depth, limit⟩, ?_, hreads' _ _ _ hroom⟩
    rw [List.append_assoc]
    exact hreads _ _ _ hroom
  · intro q hq hne depth limit hroom
    -- An input that is cut short ends within the first step, or within the second.
    rcases proper_prefix_append hq hne with ⟨hqp, hqne⟩ | ⟨q', rfl, hqp, hqne⟩
    · obtain ⟨needed, remaining, r, hlt, he⟩ := hstarves q hqp hqne depth limit hroom
      exact ⟨needed, remaining, r, hlt, Attempt.bind_error_iff.2 (.inl he)⟩
    · obtain ⟨needed, remaining, r, hlt, he⟩ := hstarves' q' hqp hqne depth limit hroom
      exact ⟨needed, remaining, r, hlt,
        Attempt.bind_error_iff.2 (.inr ⟨a, _, hreads _ _ _ hroom, he⟩)⟩

/-- **The bytes of a sequence are those of its steps, joined.** -/
theorem Reads.bind_iff {g : Get α} {f : α → Get β} (hg : g.Framed room)
    (hf : ∀ a, (f a).Framed room) {bytes : Bytes} {b : β} :
    Reads room (g >>= f) bytes b ↔
      ∃ a p q, bytes = p ++ q ∧ g.Reads room p a ∧ (f a).Reads room q b := by
  constructor
  · intro h
    obtain ⟨a, t, hga, hfb⟩ := Attempt.bind_ok_iff.1 ((hg.bind hf).reads_iff.1 h)
    obtain ⟨p, rest, rfl, rfl, hreads, -⟩ := hg.split (Nat.sub_zero room) hga
    exact ⟨a, p, rest, rfl, hreads, (hf a).reads_iff.2 hfb⟩
  · rintro ⟨a, p, q, rfl, hp, hq⟩ depth limit rest hroom
    refine Attempt.bind_ok_iff.2 ⟨a, ⟨q ++ rest, depth, limit⟩, ?_, hq _ _ _ hroom⟩
    rw [List.append_assoc]
    exact hp _ _ _ hroom

/-- A step that takes nothing gives its value, for no bytes. -/
theorem Reads.pure_iff {a b : α} {bytes : Bytes} :
    Reads room (pure a : Get α) bytes b ↔ bytes = [] ∧ a = b := by
  rw [(framed_pure a).reads_iff]
  simp [and_comm]

/-- A step that fails reads nothing. -/
theorem Reads.not_fail {e : WireError} {bytes : Bytes} {b : α} :
    ¬ Reads room (Attempt.fail e : Get α) bytes b := by
  rw [(framed_fail e).reads_iff]
  simp

/-- A step whose value is only looked at differently reads from the same bytes. -/
theorem Reads.map_iff {g : Get α} {f : α → β} (hg : g.Framed room) {bytes : Bytes} {b : β} :
    Reads room (do return f (← g)) bytes b ↔ ∃ a, g.Reads room bytes a ∧ f a = b := by
  rw [Reads.bind_iff hg fun a => framed_pure (f a)]
  constructor
  · rintro ⟨a, p, q, rfl, hp, hq⟩
    obtain ⟨rfl, rfl⟩ := Reads.pure_iff.1 hq
    exact ⟨a, by simpa using hp, rfl⟩
  · rintro ⟨a, hp, rfl⟩
    exact ⟨a, bytes, [], by simp, hp, Reads.pure_iff.2 ⟨rfl, rfl⟩⟩

theorem Framed.map {g : Get α} (f : α → β) (hg : g.Framed room) :
    Framed room (do return f (← g) : Get β) :=
  hg.bind fun a => framed_pure (f a)

/-! ### Bytes and their padding -/

/-- The step takes `n` bytes off the front: those that spell its value, or none at all. -/
structure Cuts (g : Get α) (n : Nat) (spell : α → Bytes) : Prop where
  apply_iff : ∀ {input depth limit a r}, g ⟨input, depth, limit⟩ = (.ok a, r) ↔
    ∃ rest, input = spell a ++ rest ∧ r = ⟨rest, depth, limit⟩
  apply_short : ∀ {input depth limit}, input.length < n → g ⟨input, depth, limit⟩
    = (.error (.unexpectedEnd n input.length), ⟨input, depth, limit⟩)
  length_spell : ∀ a, (spell a).length = n

/-- A proper prefix is shorter. -/
private theorem length_lt_of_proper_prefix {p q : Bytes} (h : q <+: p) (hne : q ≠ p) :
    q.length < p.length :=
  Nat.lt_of_le_of_ne h.length_le fun heq => hne (h.eq_of_length heq)

/-- A cut of a fixed number of bytes frames them. -/
theorem Cuts.framed {g : Get α} {n : Nat} {spell : α → Bytes} (h : g.Cuts n spell) :
    Framed room g := by
  refine ⟨fun {input depth limit a r} _ hg => ?_⟩
  obtain ⟨rest, rfl, rfl⟩ := h.apply_iff.1 hg
  refine ⟨spell a, rest, rfl, rfl, fun _ _ rest _ => h.apply_iff.2 ⟨rest, rfl, rfl⟩, ?_⟩
  intro q hq hne depth limit _
  have hlt : q.length < n := by
    rw [← h.length_spell a]
    exact length_lt_of_proper_prefix hq hne
  exact ⟨n, q.length, _, hlt, h.apply_short hlt⟩

/-- A cut gives a value for its spelling alone. -/
theorem Cuts.reads_iff {g : Get α} {n : Nat} {spell : α → Bytes} (h : g.Cuts n spell)
    {bytes : Bytes} {a : α} : g.Reads room bytes a ↔ bytes = spell a := by
  rw [h.framed.reads_iff, h.apply_iff]
  constructor
  · rintro ⟨rest, rfl, hrest⟩
    obtain rfl : rest = [] := by simpa using hrest.symm
    exact List.append_nil _
  · rintro rfl
    exact ⟨[], (List.append_nil _).symm, rfl⟩

/-- Where too few bytes are left, none are taken and the error tells both numbers. -/
theorem take_short {n : Nat} {input : Bytes} {depth limit : Nat} (h : input.length < n) :
    take n ⟨input, depth, limit⟩
      = (.error (.unexpectedEnd n input.length), ⟨input, depth, limit⟩) := by
  unfold take
  rw [Bytes.cut?_eq_none_iff.2 h]

/-- So many bytes are taken as they are. -/
theorem cuts_take (n : Nat) : Cuts (take n) n Vector.toList where
  apply_short := take_short
  length_spell a := a.length_toList
  apply_iff {input depth limit front r} := by
    unfold take
    cases hcut : Bytes.cut? n input with
    | none =>
        have hshort := Bytes.cut?_eq_none_iff.1 hcut
        simp only [Prod.mk.injEq, reduceCtorEq, false_and, false_iff, not_exists, not_and]
        rintro rest rfl
        rw [List.length_append, Vector.length_toList] at hshort
        omega
    | some cut =>
        obtain ⟨front', rest⟩ := cut
        have hinput := Bytes.cut?_eq_some_iff.1 hcut
        constructor
        · intro h
          obtain ⟨rfl, rfl⟩ : front' = front ∧ (⟨rest, depth, limit⟩ : Reader) = r := by
            simpa using h
          exact ⟨rest, hinput, rfl⟩
        · rintro ⟨rest', h, rfl⟩
          have hcut' := Bytes.cut?_eq_some_iff.2 h
          obtain ⟨rfl, rfl⟩ : front' = front ∧ rest = rest' := by simpa [hcut] using hcut'
          rfl

theorem framed_take (n : Nat) : Framed room (take n) := (cuts_take n).framed

theorem Reads.take_iff {n : Nat} {bytes : Bytes} {front : Vector UInt8 n} :
    (take n).Reads room bytes front ↔ bytes = front.toList := (cuts_take n).reads_iff

/-- The zeros that fill up so many bytes. -/
def zeros (length : Nat) : Bytes := List.replicate (paddingFor length) 0

@[simp] theorem length_zeros (length : Nat) : (zeros length).length = paddingFor length := by
  simp [zeros]

/-- Padding fills up words. -/
theorem dvd_add_paddingFor (length : Nat) : 4 ∣ length + paddingFor length := by
  unfold paddingFor
  omega

/-- Padding is taken where the zeros stand, and nowhere else. -/
theorem cuts_padding (length : Nat) :
    Cuts (padding length) (paddingFor length) fun _ => zeros length where
  apply_short {input depth limit} h := by
    unfold padding
    rw [Bytes.cut?_eq_none_iff.2 h]
  length_spell _ := length_zeros length
  apply_iff {input depth limit u r} := by
    unfold padding
    cases hcut : Bytes.cut? (paddingFor length) input with
    | none =>
        have hshort := Bytes.cut?_eq_none_iff.1 hcut
        simp only [Prod.mk.injEq, reduceCtorEq, false_and, false_iff, not_exists, not_and]
        rintro rest rfl
        rw [List.length_append, length_zeros] at hshort
        omega
    | some cut =>
        obtain ⟨front, rest⟩ := cut
        have hinput := Bytes.cut?_eq_some_iff.1 hcut
        -- To be all zeros is to be the one padding there is.
        have hfront : front.toList.all (· == 0) = true ↔ front.toList = zeros length := by
          simp only [List.all_eq_true, beq_iff_eq, zeros, List.eq_replicate_iff]
          simp
        constructor
        · intro h
          by_cases hz : front.toList.all (· == 0) = true
          · simp only [hz, if_true, Prod.mk.injEq, true_and] at h
            exact ⟨rest, by rw [hinput, hfront.1 hz], h.symm⟩
          · simp [hz] at h
        · rintro ⟨rest', h, rfl⟩
          obtain ⟨hz, rfl⟩ : front.toList = zeros length ∧ rest = rest' :=
            List.append_inj (hinput.symm.trans h) (by simp)
          simp only [hfront.2 hz, if_true]

theorem framed_padding (length : Nat) : Framed room (padding length) := (cuts_padding length).framed

theorem Reads.padding_iff {length : Nat} {bytes : Bytes} {u : Unit} :
    (padding length).Reads room bytes u ↔ bytes = zeros length := (cuts_padding length).reads_iff

end LedgerWire.Get
