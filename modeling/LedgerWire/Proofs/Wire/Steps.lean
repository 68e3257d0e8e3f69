/-
# The steps of reading, one by one

For every step of `Get`: it is framed, it takes a multiple of four bytes, and the bytes that it
reads a value from are these.

* `Get.Aligned` — a framed step that takes whole blocks of four bytes.
* `Reads.u32_iff`, `Reads.fixed_iff`, `Reads.bytes_iff`, … — the bytes of each kind of value.
* `Aligned.array`, `Reads.array_iff` — a list; the count that is refused in advance could not have
  been read (`le_length_of_reads_times`).
* `Aligned.nested`, `Reads.nested_iff` — a value one level further in, read with less room.
-/

import Mathlib.Algebra.Group.Nat.Defs
import Mathlib.Data.List.Forall2
import LedgerWire.Proofs.Wire.Reading

namespace LedgerWire

namespace Bytes

/-! ### Numerals of one width -/

/-- A numeral spells its number, up to the digits that did not fit. -/
theorem toNat_bigEndian (width n : Nat) : toNat (bigEndian width n) = n % 256 ^ width := by
  induction width generalizing n with
  | zero => simp [bigEndian, toNat, Nat.mod_one]
  | succ width ih =>
      rw [bigEndian, toNat_append_singleton, ih, Nat.pow_succ', Nat.mod_mul]
      simp only [UInt8.toNat_ofNat']
      omega

/-- A byte string is the numeral of the number that it spells. -/
theorem bigEndian_toNat (bytes : Bytes) : bigEndian bytes.length (toNat bytes) = bytes := by
  generalize hlen : bytes.length = width
  induction width generalizing bytes with
  | zero => simpa [bigEndian] using (List.eq_nil_of_length_eq_zero hlen).symm
  | succ width ih =>
      obtain ⟨front, b, rfl⟩ :=
        (List.eq_nil_or_concat bytes).resolve_left (by rintro rfl; simp at hlen)
      have hb := b.toNat_lt
      have hdiv : (256 * toNat front + b.toNat) / 256 = toNat front := by omega
      rw [bigEndian, List.concat_eq_append, toNat_append_singleton, hdiv,
        ih front (by simpa using hlen)]
      congr 2
      exact UInt8.toNat_inj.1 (by simp)

/-- Some bytes count less than their power of 256. -/
theorem toNat_lt (bytes : Bytes) : toNat bytes < 256 ^ bytes.length := by
  have h := toNat_bigEndian bytes.length (toNat bytes)
  rw [bigEndian_toNat] at h
  rw [h]
  exact Nat.mod_lt _ (Nat.pow_pos (by omega))

/-- Four bytes with the highest first. -/
def word (n : UInt32) : Bytes := bigEndian 4 n.toNat

@[simp] theorem length_word (n : UInt32) : (word n).length = 4 := length_bigEndian 4 _

/-- A number comes back from its word. -/
theorem toNat_word (n : UInt32) : toNat (word n) = n.toNat := by
  have := n.toNat_lt
  rw [word, toNat_bigEndian]
  omega

/-- Different numbers have different words. -/
theorem word_injective {a b : UInt32} (h : word a = word b) : a = b := by
  have hnat := toNat_word a
  rw [h, toNat_word] at hnat
  exact (UInt32.toNat_inj.1 hnat).symm

/-- Two byte strings with a word in front are equal only if the words are. -/
theorem word_eq_of_append {a b : UInt32} {p q : Bytes} (h : word a ++ p = word b ++ q) : a = b :=
  word_injective (List.append_inj_left h (by rw [length_word, length_word]))

end Bytes

namespace Get

open Bytes (word)

variable {α β : Type} {room : Nat}

/-- A framed step that takes whole blocks of four bytes. -/
structure Aligned (room : Nat) (g : Get α) : Prop extends Framed room g where
  dvd_length : ∀ {bytes a}, g.Reads room bytes a → 4 ∣ bytes.length

/-! ### Sequences -/

theorem aligned_pure (a : α) : Aligned room (pure a : Get α) where
  toFramed := framed_pure a
  dvd_length h := by simp [(Reads.pure_iff.1 h).1]

theorem aligned_fail (e : WireError) : Aligned room (Attempt.fail e : Get α) where
  toFramed := framed_fail e
  dvd_length h := absurd h Reads.not_fail

/-- A sequence is aligned if both parts are, words adding up to words. -/
theorem Aligned.bind {g : Get α} {f : α → Get β} (hg : g.Aligned room)
    (hf : ∀ a, (f a).Aligned room) : Aligned room (g >>= f) where
  toFramed := hg.toFramed.bind fun a => (hf a).toFramed
  dvd_length h := by
    obtain ⟨a, p, q, rfl, hp, hq⟩ :=
      (Reads.bind_iff hg.toFramed fun a => (hf a).toFramed).1 h
    rw [List.length_append]
    exact Nat.dvd_add (hg.dvd_length hp) ((hf a).dvd_length hq)

theorem Aligned.map {g : Get α} (f : α → β) (hg : g.Aligned room) :
    Aligned room (do return f (← g) : Get β) :=
  hg.bind fun a => aligned_pure (f a)

/-- A verdict takes no bytes. -/
theorem aligned_ofExcept (x : Except WireError α) : Aligned room (Attempt.ofExcept x : Get α) := by
  cases x with
  | ok a => exact aligned_pure a
  | error e => exact aligned_fail e

/-- A verdict is read from no bytes if it passes. -/
theorem Reads.ofExcept_iff {x : Except WireError α} {bytes : Bytes} {a : α} :
    Reads room (Attempt.ofExcept x : Get α) bytes a ↔ bytes = [] ∧ x = .ok a := by
  cases x with
  | ok b => exact Reads.pure_iff.trans (by simp)
  | error e => exact ⟨fun h => absurd h Reads.not_fail, by simp⟩

/-! ### Numbers -/

theorem framed_number (width : Nat) : Framed room (number width) :=
  (framed_take width).map fun v => Bytes.toNat v.toList

/-- A number of some width is read from the bytes of that width that count it. -/
theorem Reads.number_iff {width n : Nat} {bytes : Bytes} :
    (number width).Reads room bytes n ↔ bytes.length = width ∧ Bytes.toNat bytes = n := by
  refine (Reads.map_iff (framed_take width)).trans ?_
  simp only [Reads.take_iff]
  constructor
  · rintro ⟨v, rfl, rfl⟩
    simp
  · rintro ⟨rfl, rfl⟩
    exact ⟨⟨bytes.toArray, by simp⟩, by simp, by simp⟩

/-- A word is read from the four bytes that spell it. -/
theorem Reads.u32_iff {bytes : Bytes} {n : UInt32} : u32.Reads room bytes n ↔ bytes = word n := by
  refine (Reads.map_iff (framed_number 4)).trans ?_
  simp only [Reads.number_iff]
  constructor
  · rintro ⟨k, ⟨hlen, rfl⟩, rfl⟩
    have hlt := Bytes.toNat_lt bytes
    rw [hlen] at hlt
    rw [word, UInt32.toNat_ofNat_of_lt' (by simpa using hlt), ← hlen, Bytes.bigEndian_toNat]
  · rintro rfl
    exact ⟨n.toNat, ⟨by simp, Bytes.toNat_word n⟩, by simp⟩

theorem aligned_u32 : Aligned room u32 where
  toFramed := (framed_number 4).map UInt32.ofNat
  dvd_length h := by simp [Reads.u32_iff.1 h]

/-- A long word is read from the eight bytes that spell it. -/
theorem Reads.u64_iff {bytes : Bytes} {n : UInt64} :
    u64.Reads room bytes n ↔ bytes = Bytes.bigEndian 8 n.toNat := by
  refine (Reads.map_iff (framed_number 8)).trans ?_
  simp only [Reads.number_iff]
  constructor
  · rintro ⟨k, ⟨hlen, rfl⟩, rfl⟩
    have hlt := Bytes.toNat_lt bytes
    rw [hlen] at hlt
    rw [UInt64.toNat_ofNat_of_lt' (by simpa using hlt), ← hlen, Bytes.bigEndian_toNat]
  · rintro rfl
    have hlt := n.toNat_lt
    refine ⟨n.toNat, ⟨by simp, ?_⟩, by simp⟩
    rw [Bytes.toNat_bigEndian]
    omega

theorem aligned_u64 : Aligned room u64 where
  toFramed := (framed_number 8).map UInt64.ofNat
  dvd_length h := by
    rw [Reads.u64_iff.1 h, Bytes.length_bigEndian]
    omega

/-! ### Byte strings -/

/-- A byte string of fixed length is read from its bytes and the zeros behind them. -/
theorem Reads.fixed_iff {n : Nat} {bytes : Bytes} {v : Vector UInt8 n} :
    (fixed n).Reads room bytes v ↔ bytes = v.toList ++ zeros n := by
  have htail : ∀ w : Vector UInt8 n, Framed room (do padding n; return w) := fun w =>
    (framed_padding n).bind fun _ => framed_pure w
  have hreads : ∀ (w : Vector UInt8 n) q,
      Reads room (do padding n; return w) q v ↔ q = zeros n ∧ w = v := by
    intro w q
    rw [Reads.bind_iff (framed_padding n) fun _ => framed_pure w]
    simp only [Reads.padding_iff, Reads.pure_iff]
    constructor
    · rintro ⟨_, p, q, rfl, rfl, rfl, rfl⟩
      simp
    · rintro ⟨rfl, rfl⟩
      exact ⟨(), zeros n, [], by simp⟩
  refine (Reads.bind_iff (framed_take n) htail).trans ?_
  simp only [Reads.take_iff, hreads]
  constructor
  · rintro ⟨w, p, q, rfl, rfl, rfl, rfl⟩
    rfl
  · rintro rfl
    exact ⟨v, v.toList, zeros n, rfl, rfl, rfl, rfl⟩

theorem aligned_fixed (n : Nat) : Aligned room (fixed n) where
  toFramed := (framed_take n).bind fun v => (framed_padding n).bind fun _ => framed_pure v
  dvd_length h := by
    rw [Reads.fixed_iff.1 h]
    simpa using dvd_add_paddingFor n

/-- What follows the length of a byte string. -/
private theorem reads_toList_fixed {n : Nat} {p b : Bytes} :
    Reads room (do return (← fixed n).toList) p b ↔ b.length = n ∧ p = b ++ zeros n := by
  refine (Reads.map_iff (aligned_fixed n).toFramed).trans ?_
  simp only [Reads.fixed_iff]
  constructor
  · rintro ⟨v, rfl, rfl⟩
    simp
  · rintro ⟨rfl, rfl⟩
    exact ⟨⟨b.toArray, by simp⟩, by simp, by simp⟩

/-- A string of bytes is padded, so it is aligned. -/
theorem aligned_bytes (max : UInt32) (kind : String) : Aligned room (bytes max kind) := by
  refine aligned_u32.bind fun length => ?_
  have hfixed : Aligned room (do return (← fixed length.toNat).toList) :=
    (aligned_fixed _).map _
  split
  · exact (aligned_fail _).bind fun _ => hfixed
  · exact hfixed

/-- A byte string within its bound is read from its length, its bytes, and the zeros behind
them. -/
theorem Reads.bytes_iff {max : UInt32} {kind : String} {p b : Bytes} :
    (bytes max kind).Reads room p b ↔
      b.length ≤ max.toNat ∧ p = word (UInt32.ofNat b.length) ++ (b ++ zeros b.length) := by
  have hfixed : ∀ n : Nat, Aligned room (do return (← fixed n).toList) := fun n =>
    (aligned_fixed n).map _
  have hrest : ∀ (length : UInt32) (q : Bytes),
      Reads room (do
        if max < length then
          Attempt.fail (.malformed kind (.lengthAbove length.toNat max.toNat))
        return (← fixed length.toNat).toList) q b ↔
      length ≤ max ∧ b.length = length.toNat ∧ q = b ++ zeros length.toNat := by
    intro length q
    by_cases hmax : max < length
    · rw [if_pos hmax, Reads.bind_iff (framed_fail _) fun _ => (hfixed _).toFramed]
      refine iff_of_false (fun ⟨_, _, _, _, hfail, _⟩ => Reads.not_fail hfail) ?_
      exact fun h => absurd h.1 (UInt32.not_le.2 hmax)
    · rw [if_neg hmax]
      exact reads_toList_fixed.trans (by simp [UInt32.not_lt.1 hmax])
  refine (Reads.bind_iff aligned_u32.toFramed fun length => ?_).trans ?_
  · split
    · exact (framed_fail _).bind fun _ => (hfixed _).toFramed
    · exact (hfixed _).toFramed
  simp only [Reads.u32_iff, hrest]
  constructor
  · rintro ⟨length, _, _, rfl, rfl, hmax, hlen, rfl⟩
    rw [hlen]
    exact ⟨UInt32.le_iff_toNat_le.1 hmax, by simp⟩
  · rintro ⟨hmax, rfl⟩
    -- Within the bound the length fits the word that it is written in.
    have hlen : (UInt32.ofNat b.length).toNat = b.length :=
      UInt32.toNat_ofNat_of_lt' (Nat.lt_of_le_of_lt hmax max.toNat_lt)
    exact ⟨_, _, _, rfl, rfl, UInt32.le_iff_toNat_le.2 (by omega), hlen.symm, by rw [hlen]⟩

/-! ### Composite values -/

/-- An optional value is aligned if what may be there is. -/
theorem Aligned.optional {g : Get α} (hg : g.Aligned room) (hbool : bool.Aligned room) :
    Aligned room g.optional := by
  refine hbool.bind fun b => ?_
  cases b with
  | true => exact hg.map some
  | false => exact aligned_pure none

/-- A repetition is aligned if its step is, by induction on the count. -/
theorem Aligned.times {g : Get α} (hg : g.Aligned room) : ∀ n, Aligned room (g.times n)
  | 0 => aligned_pure []
  | n + 1 => hg.bind fun a => (hg.times n).bind fun as => aligned_pure (a :: as)

/-- Values one after the other are read from their bytes, joined. -/
theorem Reads.times_iff {g : Get α} (hg : g.Aligned room) {n : Nat} {bytes : Bytes}
    {as : List α} : (g.times n).Reads room bytes as ↔
      as.length = n ∧ ∃ ps, List.Forall₂ (fun a p => g.Reads room p a) as ps
        ∧ bytes = ps.flatten := by
  induction n generalizing bytes as with
  | zero =>
      refine Reads.pure_iff.trans ?_
      constructor
      · rintro ⟨rfl, rfl⟩
        exact ⟨rfl, [], .nil, rfl⟩
      · rintro ⟨hlen, ps, hps, rfl⟩
        obtain rfl := List.eq_nil_of_length_eq_zero hlen
        cases hps
        exact ⟨rfl, rfl⟩
  | succ n ih =>
      refine (Reads.bind_iff hg.toFramed fun a => ((hg.times n).map (a :: ·)).toFramed).trans ?_
      constructor
      · rintro ⟨a, p, q, rfl, hp, hq⟩
        obtain ⟨as, hrest, rfl⟩ := (Reads.map_iff (hg.times n).toFramed).1 hq
        obtain ⟨hlen, ps, hps, rfl⟩ := ih.1 hrest
        exact ⟨by simp [hlen], p :: ps, .cons hp hps, rfl⟩
      · rintro ⟨hlen, ps, hps, rfl⟩
        cases hps with
        | nil => simp at hlen
        | @cons a p as ps hp hps =>
            have hrest : (g.times n).Reads room ps.flatten as :=
              ih.2 ⟨by simpa using hlen, ps, hps, rfl⟩
            exact ⟨a, p, ps.flatten, rfl, hp,
              (Reads.map_iff (hg.times n).toFramed).2 ⟨as, hrest, rfl⟩⟩

/-- **A list takes at least four bytes a value.** So a count that the input cannot hold could not
have been read. -/
theorem le_length_of_reads_times {g : Get α} (hg : g.Aligned room) (hungry : g.Hungry) {n : Nat}
    {bytes : Bytes} {as : List α} (h : (g.times n).Reads room bytes as) :
    4 * n ≤ bytes.length := by
  obtain ⟨rfl, ps, hps, rfl⟩ := (Reads.times_iff hg).1 h
  clear h
  induction hps with
  | nil => simp
  | @cons a p as ps hp _ ih =>
      have hpos := List.length_pos_iff.2 (hungry.ne_nil hp)
      have hdvd := hg.dvd_length hp
      simp only [List.length_cons, List.flatten_cons, List.length_append]
      omega

/-- So many values, unless the input is too short for them. -/
def counted (g : Get α) (n : Nat) : Get (List α) := do
  need (4 * n)
  g.times n

/-- Where the bytes are there, asking for them changes nothing. -/
theorem need_apply {n : Nat} {r : Reader} (h : n ≤ r.unread.length) : need n r = (.ok (), r) := by
  unfold need
  rw [if_pos (Bytes.hasAtLeast_iff.2 h)]

/-- Where they are not, the error tells both numbers. -/
theorem need_short {n : Nat} {r : Reader} (h : r.unread.length < n) :
    need n r = (.error (.unexpectedEnd n r.unread.length), r) := by
  unfold need
  rw [if_neg (fun hlen => absurd (Bytes.hasAtLeast_iff.1 hlen) (by omega))]

/-- **The look-ahead hides nothing**: a count is taken where four bytes an item are left, and the
items are read as ever. -/
theorem counted_apply {g : Get α} {n : Nat} {r r' : Reader} {as : List α} :
    counted g n r = (.ok as, r') ↔ 4 * n ≤ r.unread.length ∧ g.times n r = (.ok as, r') := by
  unfold counted
  rw [Attempt.bind_apply]
  by_cases h : 4 * n ≤ r.unread.length
  · rw [need_apply h]
    simp [h]
  · rw [need_short (by omega)]
    simp [h]

/-- **The look ahead changes nothing**: it never refuses values that could be read. -/
theorem Reads.counted_iff {g : Get α} (hg : g.Aligned room) (hungry : g.Hungry) {n : Nat}
    {bytes : Bytes} {as : List α} :
    (counted g n).Reads room bytes as ↔ (g.times n).Reads room bytes as := by
  constructor
  · intro h
    have hcounted : counted g n ⟨bytes, 0, room⟩ = (.ok as, ⟨[], 0, room⟩) := by
      simpa using h 0 room [] (Nat.sub_zero room)
    exact (hg.times n).toFramed.reads_iff.2 (counted_apply.1 hcounted).2
  · intro h depth limit rest hroom
    refine counted_apply.2 ⟨?_, h _ _ _ hroom⟩
    have := le_length_of_reads_times hg hungry h
    simp only [List.length_append]
    omega

/-- Counted items are aligned: an item takes at least a word, so what the look-ahead refuses could
not have been read. -/
theorem aligned_counted {g : Get α} (hg : g.Aligned room) (hungry : g.Hungry) (n : Nat) :
    Aligned room (counted g n) where
  split {input depth limit as r} hroom h := by
    obtain ⟨_, htimes⟩ := counted_apply.1 h
    obtain ⟨p, rest, rfl, rfl, hreads, hstarves⟩ := (hg.times n).split hroom htimes
    refine ⟨p, rest, rfl, rfl, (Reads.counted_iff hg hungry).2 hreads, ?_⟩
    intro q hq hne depth limit hroom
    -- A short input is refused by the look-ahead, or else by one of the items.
    by_cases hlen : 4 * n ≤ q.length
    · obtain ⟨needed, remaining, r, hlt, he⟩ := hstarves q hq hne depth limit hroom
      refine ⟨needed, remaining, r, hlt, ?_⟩
      rw [counted, Attempt.bind_apply, need_apply hlen]
      exact he
    · have hshort : q.length < 4 * n := by omega
      refine ⟨4 * n, q.length, ⟨q, depth, limit⟩, hshort, ?_⟩
      rw [counted, Attempt.bind_apply, need_short hshort]
  dvd_length h := (hg.times n).dvd_length ((Reads.counted_iff hg hungry).1 h)

/-- A list is a count within the bound and as many items. -/
theorem array_eq (g : Get α) (max : UInt32) (kind : String) :
    g.array max kind = (do
      let count ← u32
      if max < count then Attempt.fail (.malformed kind (.countAbove count.toNat max.toNat))
      else counted g count.toNat) := by
  unfold array counted
  refine congrArg (u32 >>= ·) (funext fun count => ?_)
  split <;> rfl

/-- A list of aligned items is aligned, given that none is read from nothing. -/
theorem Aligned.array {g : Get α} (hg : g.Aligned room) (hungry : g.Hungry) (max : UInt32)
    (kind : String) : Aligned room (g.array max kind) := by
  rw [array_eq]
  refine aligned_u32.bind fun count => ?_
  split
  · exact aligned_fail _
  · exact aligned_counted hg hungry _

/-- A list within its bound is read from its number and the bytes of its values. -/
theorem Reads.array_iff {g : Get α} (hg : g.Aligned room) (hungry : g.Hungry) {max : UInt32}
    {kind : String} {bytes : Bytes} {as : List α} :
    (g.array max kind).Reads room bytes as ↔
      as.length ≤ max.toNat ∧ ∃ ps, List.Forall₂ (fun a p => g.Reads room p a) as ps
        ∧ bytes = word (UInt32.ofNat as.length) ++ ps.flatten := by
  have hrest : ∀ (count : UInt32) (q : Bytes),
      Reads room (if max < count then
          Attempt.fail (.malformed kind (.countAbove count.toNat max.toNat))
        else counted g count.toNat) q as ↔
      count ≤ max ∧ (g.times count.toNat).Reads room q as := by
    intro count q
    by_cases hmax : max < count
    · rw [if_pos hmax]
      exact iff_of_false Reads.not_fail fun h => absurd h.1 (UInt32.not_le.2 hmax)
    · rw [if_neg hmax, Reads.counted_iff hg hungry]
      simp [UInt32.not_lt.1 hmax]
  rw [array_eq, Reads.bind_iff aligned_u32.toFramed]
  · simp only [Reads.u32_iff, hrest, Reads.times_iff hg]
    constructor
    · rintro ⟨count, _, _, rfl, rfl, hmax, hlen, ps, hps, rfl⟩
      rw [hlen]
      exact ⟨UInt32.le_iff_toNat_le.1 hmax, ps, hps, by simp⟩
    · rintro ⟨hmax, ps, hps, rfl⟩
      have hlen : (UInt32.ofNat as.length).toNat = as.length :=
        UInt32.toNat_ofNat_of_lt' (Nat.lt_of_le_of_lt hmax max.toNat_lt)
      exact ⟨_, _, _, rfl, rfl, UInt32.le_iff_toNat_le.2 (by omega), hlen.symm, ps, hps, rfl⟩
  · intro count
    split
    · exact framed_fail _
    · exact (aligned_counted hg hungry _).toFramed

/-! ### One level further in -/

/-- With room to go down, the step runs one level deeper and comes back up. -/
theorem nested_apply_iff {g : Get α} {input : Bytes} {depth limit : Nat} (h : depth < limit)
    {result : Except WireError α} {r : Reader} :
    g.nested ⟨input, depth, limit⟩ = (result, r) ↔
      ∃ t, g ⟨input, depth + 1, limit⟩ = (result, t) ∧ { t with depth := t.depth - 1 } = r := by
  unfold nested
  rw [if_neg (by simpa using h)]
  cases hg : g ⟨input, depth + 1, limit⟩ with
  | mk result' t => simp

/-- With no room, nothing is read and the error tells the limit. -/
theorem nested_refused {g : Get α} {input : Bytes} {depth limit : Nat} (h : limit - depth = 0) :
    g.nested ⟨input, depth, limit⟩
      = (.error (.depthLimitExceeded limit), ⟨input, depth, limit⟩) := by
  unfold nested
  rw [if_pos (by simp; omega)]

/-- One level further in, the same bytes are read with less room. -/
theorem Reads.nested_iff {g : Get α} {bytes : Bytes} {a : α} (hg : g.Framed room) :
    g.nested.Reads (room + 1) bytes a ↔ g.Reads room bytes a := by
  constructor
  · intro h
    obtain ⟨t, hga, ht⟩ := (nested_apply_iff (by omega)).1 (h 0 (room + 1) [] rfl)
    obtain ⟨p, rest, hsplit, rfl, hreads, -⟩ := hg.split (by omega) hga
    obtain rfl : rest = [] := by simpa using ht
    rw [List.append_nil, List.append_nil] at hsplit
    rwa [hsplit]
  · intro h depth limit rest hroom
    exact (nested_apply_iff (by omega)).2 ⟨_, h (depth + 1) limit rest (by omega), rfl⟩

/-- One level down is aligned with one level more of room. -/
theorem Aligned.nested {g : Get α} (hg : g.Aligned room) : Aligned (room + 1) g.nested where
  split {input depth limit a r} hroom h := by
    obtain ⟨t, hga, rfl⟩ := (nested_apply_iff (by omega)).1 h
    obtain ⟨p, rest, rfl, rfl, hreads, hstarves⟩ := hg.split (by omega) hga
    refine ⟨p, rest, rfl, rfl, (Reads.nested_iff hg.toFramed).2 hreads, ?_⟩
    intro q hq hne depth limit hroom
    obtain ⟨needed, remaining, r, hlt, he⟩ := hstarves q hq hne (depth + 1) limit (by omega)
    exact ⟨needed, remaining, _, hlt, (nested_apply_iff (by omega)).2 ⟨r, he, rfl⟩⟩
  dvd_length h := hg.dvd_length ((Reads.nested_iff hg.toFramed).1 h)

/-- Without room no value one level further in is read. -/
theorem Reads.not_nested {g : Get α} {bytes : Bytes} {a : α} : ¬ g.nested.Reads 0 bytes a := by
  intro h
  have h' := h 0 0 [] rfl
  rw [nested_refused rfl] at h'
  simp at h'

/-- With no room there is nothing to align. -/
theorem aligned_nested_zero (g : Get α) : Aligned 0 g.nested where
  split hroom h := by
    rw [nested_refused hroom] at h
    simp at h
  dvd_length h := absurd h Reads.not_nested

/-! ### Nothing from nothing -/

/-- A sequence is hungry as soon as its first part is. -/
theorem Hungry.bind {g : Get α} (hg : g.Hungry) (f : α → Get β) : Hungry (g >>= f) := by
  intro depth limit
  obtain ⟨e, r, he⟩ := hg depth limit
  exact ⟨e, r, Attempt.bind_error_iff.2 (.inl he)⟩

/-- A number of some width cannot be read from nothing. -/
theorem hungry_number {width : Nat} (h : 0 < width) : Hungry (number width) := by
  have htake : Hungry (take width) := fun _ _ => ⟨_, _, take_short h⟩
  exact htake.bind _

theorem hungry_u32 : Hungry u32 := (hungry_number (by omega)).bind _

theorem hungry_u64 : Hungry u64 := (hungry_number (by omega)).bind _

theorem hungry_i32 : Hungry i32 := hungry_u32.bind _

theorem hungry_optional (g : Get α) : Hungry g.optional := (hungry_u32.bind _).bind _

/-- One level down is as hungry as the step. -/
theorem Hungry.nested {g : Get α} (hg : g.Hungry) : Hungry g.nested := by
  intro depth limit
  by_cases h : depth < limit
  · obtain ⟨e, r, he⟩ := hg (depth + 1) limit
    exact ⟨e, _, (nested_apply_iff h).2 ⟨r, he, rfl⟩⟩
  · exact ⟨_, _, nested_refused (by omega)⟩

end Get

end LedgerWire
