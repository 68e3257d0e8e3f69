/-
# The rounds of a price's expansion

The expansion of a decimal goes round by round: a round takes the next term into the convergents and
passes the reciprocal of what the term left to the next one, or it is the last. This module says
what a round can do, and that there are only so many of them. From the second convergent on every
term is at least one, so the denominators grow like the Fibonacci numbers, and the 47th of these is
beyond the largest term.

* `Round`, `round` — one round, and what comes of it; `expand_succ` is the expansion in rounds.
* `round_eq_last_iff`, `round_eq_next_iff` — all that a round can do.
* `Expands` — the expansion without a bound on its rounds, with their number.
* `expands_convergents` — every expansion ends, after at most 47 rounds.
-/

import Mathlib.Data.Nat.Fib.Basic
import LedgerWire.Price

namespace LedgerWire.Price

variable {value places term : Nat} {c c' : Convergents}

/-! ### Convergents -/

namespace Convergents

/-- The convergents after one more term. -/
def next (c : Convergents) (term : Nat) : Convergents :=
  ⟨term * c.h + c.h', term * c.k + c.k', c.h, c.k⟩

/-- Numerator and denominator are terms of a price. -/
def Fits (c : Convergents) : Prop := c.h ≤ maxTerm ∧ c.k ≤ maxTerm

instance (c : Convergents) : Decidable c.Fits := inferInstanceAs (Decidable (_ ∧ _))

/-- A step whose terms fit is taken. -/
theorem step?_of_fits (h : (c.next term).Fits) : c.step? term = some (c.next term) := if_pos h

/-- A step whose terms do not fit ends the search. -/
theorem step?_of_not_fits (h : ¬(c.next term).Fits) : c.step? term = none := if_neg h

end Convergents

/-! ### One round -/

/-- The whole part of the number to expand, which is the term of the round. -/
def termOf (value places : Nat) : Nat := value / 10 ^ places

/-- What the term leaves, in units of `10 ^ -places`. -/
def partOf (value places : Nat) : Nat := value % 10 ^ places

/-- The round takes its term: it is not too large, and neither are the convergents after it. -/
def Takes (value places : Nat) (c : Convergents) : Prop :=
  termOf value places ≤ maxTerm ∧ (c.next (termOf value places)).Fits

/-- The term leaves nothing, or next to nothing. -/
def Exhausts (value places : Nat) : Prop :=
  partOf value places = 0 ∨ maxTerm < 10 ^ places / partOf value places

instance (value places : Nat) (c : Convergents) : Decidable (Takes value places c) :=
  inferInstanceAs (Decidable (_ ∧ _))

instance (value places : Nat) : Decidable (Exhausts value places) :=
  inferInstanceAs (Decidable (_ ∨ _))

/-- What comes of a round: the last convergents, or convergents and the number that is left to
expand, in units of `10 ^ -reciprocalPlaces`. -/
inductive Round where
  | last (c : Convergents)
  | next (value : Nat) (c : Convergents)
  deriving DecidableEq, Repr

/-- One round of the expansion of `value / 10 ^ places`. -/
def round (value places : Nat) (c : Convergents) : Round :=
  if Takes value places c then
    if Exhausts value places then .last (c.next (termOf value places))
    else .next (roundedQuotient (10 ^ places) (partOf value places) reciprocalPlaces)
      (c.next (termOf value places))
  else .last c

/-- **An expansion is its first round, and the expansion of what that leaves.** -/
theorem expand_succ (fuel value places : Nat) (c : Convergents) :
    expand (fuel + 1) value places c = match round value places c with
      | .last c => c
      | .next value c => expand fuel value reciprocalPlaces c := by
  have hunit : Nat.pow 10 places = 10 ^ places := rfl
  have hwhole : value / 10 ^ places = termOf value places := rfl
  have hrest : value % 10 ^ places = partOf value places := rfl
  rw [expand]
  simp only [hunit, hwhole, hrest]
  unfold round Takes Exhausts
  by_cases hterm : maxTerm < termOf value places
  · simp [hterm, Nat.not_le.2 hterm]
  · by_cases hfits : (c.next (termOf value places)).Fits
    · rw [Convergents.step?_of_fits hfits]
      by_cases hpart : partOf value places = 0
      · simp [hterm, Nat.not_lt.1 hterm, hfits, hpart]
      · by_cases hlarge : maxTerm < 10 ^ places / partOf value places
        · simp [hterm, Nat.not_lt.1 hterm, hfits, hpart, hlarge]
        · simp [hterm, Nat.not_lt.1 hterm, hfits, hpart, hlarge]
    · rw [Convergents.step?_of_not_fits hfits]
      simp [hfits]

/-- **How an expansion ends**: before a term that is too large, or behind one that leaves nothing,
or next to nothing. -/
theorem round_eq_last_iff : round value places c = .last c' ↔
    (¬Takes value places c ∧ c' = c)
      ∨ (Takes value places c ∧ Exhausts value places ∧ c' = c.next (termOf value places)) := by
  unfold round
  by_cases htakes : Takes value places c
  · by_cases hexhausts : Exhausts value places
    · simp [htakes, hexhausts, eq_comm]
    · simp [htakes, hexhausts]
  · simp [htakes, eq_comm]

/-- **How an expansion goes on**: with the rounded reciprocal of what the term left. -/
theorem round_eq_next_iff {value' : Nat} : round value places c = .next value' c' ↔
    Takes value places c ∧ ¬Exhausts value places ∧ c' = c.next (termOf value places)
      ∧ value' = roundedQuotient (10 ^ places) (partOf value places) reciprocalPlaces := by
  unfold round
  by_cases htakes : Takes value places c
  · by_cases hexhausts : Exhausts value places
    · simp [htakes, hexhausts]
    · simp [htakes, hexhausts, eq_comm, and_comm]
  · simp [htakes]

/-- A part that is not next to nothing has a reciprocal that a term may have. -/
theorem not_exhausts_iff : ¬Exhausts value places ↔
    0 < partOf value places ∧ 10 ^ places / partOf value places ≤ maxTerm := by
  unfold Exhausts
  rw [not_or, Nat.pos_iff_ne_zero, Nat.not_lt]

theorem partOf_lt (value places : Nat) : partOf value places < 10 ^ places :=
  Nat.mod_lt _ (Nat.pow_pos (by decide))

/-- The term and what it leaves make up the number. -/
theorem value_eq (value places : Nat) :
    value = 10 ^ places * termOf value places + partOf value places :=
  (Nat.div_add_mod value _).symm

/-- The quotient is rounded to the nearest, halves up. -/
theorem roundedQuotient_def (unit part places : Nat) :
    roundedQuotient unit part places
      = if part ≤ 2 * (unit * 10 ^ places % part) then unit * 10 ^ places / part + 1
        else unit * 10 ^ places / part := rfl

/-- A reciprocal of a part is at least one, rounded or not. -/
theorem pow_le_roundedQuotient {unit part : Nat} (hpart : 0 < part) (hle : part ≤ unit)
    (places : Nat) : 10 ^ places ≤ roundedQuotient unit part places := by
  have hquotient : 10 ^ places ≤ unit * 10 ^ places / part := by
    rw [Nat.le_div_iff_mul_le hpart, Nat.mul_comm]
    exact Nat.mul_le_mul_right _ hle
  rw [roundedQuotient_def]
  split
  · exact Nat.le_succ_of_le hquotient
  · exact hquotient

/-! ### The whole expansion -/

/-- An expansion, with the number of its rounds and the convergents that it ends with. -/
inductive Expands : (rounds value places : Nat) → Convergents → Convergents → Prop
  | last {value places : Nat} {c c' : Convergents} :
      round value places c = .last c' → Expands 1 value places c c'
  | next {rounds value places value' : Nat} {c c' last : Convergents} :
      round value places c = .next value' c' → Expands rounds value' reciprocalPlaces c' last →
        Expands (rounds + 1) value places c last

/-- The 47th Fibonacci number is beyond the largest term. -/
theorem lt_of_fib_le {m k : Nat} (hfib : Nat.fib m ≤ k) (hk : k ≤ maxTerm) : m < 47 := by
  have hlarge : maxTerm < Nat.fib 47 := by decide +kernel
  by_contra hm
  have hmono : Nat.fib 47 ≤ Nat.fib m := Nat.fib_mono (Nat.not_lt.1 hm)
  omega

/-- From a first convergent on, an expansion ends. By induction on the fuel, along which the
denominators of two consecutive convergents stay above two consecutive Fibonacci numbers. -/
theorem expands_of_fib_le (fuel : Nat) {m : Nat} (hvalue : 10 ^ reciprocalPlaces ≤ value)
    (hk' : Nat.fib m ≤ c.k') (hk : Nat.fib (m + 1) ≤ c.k) (hfits : c.Fits)
    (hfuel : 46 ≤ fuel + m) :
    ∃ rounds, rounds + m ≤ 46
      ∧ Expands rounds value reciprocalPlaces c (expand fuel value reciprocalPlaces c) := by
  have hm := lt_of_fib_le hk hfits.2
  induction fuel generalizing value c m with
  | zero => omega
  | succ fuel ih =>
      rw [expand_succ]
      cases hround : round value reciprocalPlaces c with
      | last c' => exact ⟨1, by omega, .last hround⟩
      | next value' c' =>
          obtain ⟨htakes, hleaves, rfl, rfl⟩ := round_eq_next_iff.1 hround
          have hpart := (not_exhausts_iff.1 hleaves).1
          have hvalue' := pow_le_roundedQuotient hpart (partOf_lt value _).le reciprocalPlaces
          -- From the second round on the number is at least one, so its term is.
          have hterm : 1 ≤ termOf value reciprocalPlaces :=
            (Nat.one_le_div_iff (Nat.pow_pos (by decide))).2 hvalue
          have hgrow : c.k ≤ termOf value reciprocalPlaces * c.k := Nat.le_mul_of_pos_left _ hterm
          have hfib : Nat.fib (m + 1 + 1) ≤ (c.next (termOf value reciprocalPlaces)).k := by
            rw [Nat.fib_add_two]
            show _ ≤ termOf value reciprocalPlaces * c.k + c.k'
            omega
          obtain ⟨rounds, hrounds, hexpands⟩ := ih hvalue' hk hfib htakes.2 (by omega)
            (lt_of_fib_le hfib htakes.2.2)
          exact ⟨rounds + 1, by omega, .next hround hexpands⟩

/-- **Every expansion ends**, and within 47 rounds. -/
theorem expands_convergents (value places : Nat) :
    ∃ rounds ≤ 47, Expands rounds value places .start (convergents value places) := by
  unfold convergents
  rw [expand_succ]
  cases hround : round value places .start with
  | last c' => exact ⟨1, by decide, .last hround⟩
  | next value' c' =>
      obtain ⟨htakes, hleaves, rfl, rfl⟩ := round_eq_next_iff.1 hround
      have hpart := (not_exhausts_iff.1 hleaves).1
      have hvalue' := pow_le_roundedQuotient hpart (partOf_lt value places).le reciprocalPlaces
      -- The first denominators are 1 and 0.
      have hk : Nat.fib (0 + 1) ≤ (Convergents.start.next (termOf value places)).k := by
        simp [Convergents.next, Convergents.start]
      obtain ⟨rounds, hrounds, hexpands⟩ :=
        expands_of_fib_le 63 hvalue' (Nat.zero_le _) hk htakes.2 (by decide)
      exact ⟨rounds + 1, by omega, .next hround hexpands⟩

end LedgerWire.Price
