/-
# The number that a numeral spells

A numeral spells a rational number, and its digits count units of a negative power of ten of it.
Zeros in front of the digits do not count. Read digit by digit, a number stays below a bound all the
way if it does so in the end.

* `Decimal.value` — the number that a numeral spells.
* `Decimal.scaled_eq` — the units that a numeral counts.
* `Decimal.value_zeros` — zeros in front.
* `pushBelow`, `foldlM_pushBelow` — digits read one by one.
-/

import Mathlib.Algebra.Order.Field.Basic
import Mathlib.Tactic.FieldSimp
import Mathlib.Tactic.Positivity
import Mathlib.Tactic.Ring
import LedgerWire.Proofs.Text.Decimal

namespace LedgerWire.Text

/-! ### Digits one by one -/

section Below

variable {bound n : Nat}

/-- A number, if it is below the bound. -/
def below (bound n : Nat) : Option Nat := if n < bound then some n else none

/-- A number below the bound is kept. -/
theorem below_of_lt (h : n < bound) : below bound n = some n := if_pos h

/-- A number that is not is given up. -/
theorem below_of_le (h : bound ≤ n) : below bound n = none := if_neg (Nat.not_lt.2 h)

/-- A number with one more digit, if it is below the bound before that digit counts and after. -/
def pushBelow (bound n : Nat) (c : Char) : Option Nat := do
  let shifted ← below bound (n * 10)
  below bound (shifted + (c.toNat - '0'.toNat))

/-- A digit that is pushed is added as it would be without a bound, and the bound is looked at once.
-/
theorem pushBelow_eq (bound n : Nat) (c : Char) :
    pushBelow bound n c = below bound (10 * n + (c.toNat - '0'.toNat)) := by
  rw [pushBelow, Nat.mul_comm 10 n]
  by_cases hfits : n * 10 < bound
  · rw [below_of_lt hfits]
    rfl
  · have hlarge := Nat.not_lt.1 hfits
    rw [below_of_le hlarge, below_of_le (hlarge.trans (Nat.le_add_right _ _))]
    rfl

/-- **Digits behind a number below the bound**: on the way to a number below it there is none that
is not. -/
theorem foldlM_pushBelow (digits : List Char) (hn : n < bound) :
    digits.foldlM (pushBelow bound) n
      = below bound (10 ^ digits.length * n + natOfDigits digits) := by
  induction digits generalizing n with
  | nil =>
      rw [List.length_nil, Nat.pow_zero, Nat.one_mul]
      exact (below_of_lt hn).symm
  | cons c digits ih =>
      have hshift : 10 ^ (c :: digits).length * n + natOfDigits (c :: digits)
          = 10 ^ digits.length * (10 * n + (c.toNat - '0'.toNat)) + natOfDigits digits := by
        rw [natOfDigits_cons, List.length_cons, Nat.pow_succ]
        ring
      rw [List.foldlM_cons, pushBelow_eq, hshift]
      by_cases hfits : 10 * n + (c.toNat - '0'.toNat) < bound
      · rw [below_of_lt hfits]
        exact ih hfits
      · have hlarge := Nat.not_lt.1 hfits
        have hgrow := Nat.le_mul_of_pos_left (10 * n + (c.toNat - '0'.toNat))
          (Nat.pow_pos (n := digits.length) (show 0 < 10 by decide))
        rw [below_of_le hlarge, below_of_le (hlarge.trans (hgrow.trans (Nat.le_add_right _ _)))]
        rfl

/-- The digits of a number below the bound. -/
theorem foldlM_pushBelow_zero (digits : List Char) (hbound : 0 < bound) :
    digits.foldlM (pushBelow bound) 0 = below bound (natOfDigits digits) := by
  rw [foldlM_pushBelow digits hbound, Nat.mul_zero, Nat.zero_add]

end Below

/-! ### The number -/

namespace Decimal

variable {d : Decimal} {places : Nat}

/-- The number that a numeral spells. -/
def value (d : Decimal) : ℚ :=
  (if d.negative then -1 else 1)
    * (natOfDigits d.whole + natOfDigits d.fraction / 10 ^ d.fraction.length)

/-- The digits of a numeral are those of the whole part, moved up, and those of the fraction. -/
theorem digits_eq (d : Decimal) :
    d.digits = 10 ^ d.fraction.length * natOfDigits d.whole + natOfDigits d.fraction :=
  natOfDigits_append d.whole d.fraction

/-- **The units that a numeral counts** are those of the number that it spells. -/
theorem scaled_eq (h : d.fraction.length ≤ places) :
    (d.scaled places : ℚ) = d.value * 10 ^ places := by
  have hmagnitude : ((d.digits * 10 ^ (places - d.fraction.length) : ℕ) : ℚ)
      = (natOfDigits d.whole + natOfDigits d.fraction / 10 ^ d.fraction.length) * 10 ^ places := by
    rw [digits_eq, ← Nat.sub_add_cancel h, Nat.add_sub_cancel_right, pow_add]
    push_cast
    field_simp
  have hscaled : d.scaled places = if d.negative
      then -((d.digits * 10 ^ (places - d.fraction.length) : ℕ) : ℤ)
      else ((d.digits * 10 ^ (places - d.fraction.length) : ℕ) : ℤ) := rfl
  rw [hscaled, value]
  cases d.negative with
  | true =>
      rw [if_pos rfl, if_pos rfl, Int.cast_neg, Int.cast_natCast, hmagnitude]
      ring
  | false =>
      rw [if_neg Bool.false_ne_true, if_neg Bool.false_ne_true, Int.cast_natCast, hmagnitude]
      ring

/-- Without its sign, a numeral with all its places counts what its digits spell. -/
theorem natAbs_scaled (h : d.fraction.length = places) : (d.scaled places).natAbs = d.digits := by
  have hone : d.digits * Nat.pow 10 (places - d.fraction.length) = d.digits := by
    rw [h, Nat.sub_self]
    exact Nat.mul_one _
  unfold scaled
  simp only [hone]
  split
  · rw [Int.natAbs_neg, Int.natAbs_natCast]
  · rw [Int.natAbs_natCast]

/-- Zeros in front do not change the number. -/
theorem value_zeros (d : Decimal) (zeros : Nat) :
    value { d with whole := List.replicate zeros '0' ++ d.whole } = d.value := by
  unfold value
  simp only [natOfDigits_zeros_append]

end Decimal

end LedgerWire.Text
