/-
# How far an expansion drifts

A number is what its convergents and the rest of its expansion make of it: `h/k` after `h'/k'`,
continued by `x`, are worth `(h x + h') / (k x + k')`. A round keeps this worth, but for the
rounding of the reciprocal, and what the rounding of `x` does to the worth shrinks with the square
of the denominators. So over a whole expansion the worth never leaves the number by more than one
unit of the twentieth place.

* `Convergents.worth` — the number that the convergents and the rest stand for.
* `Convergents.worth_next` — a term and an exact reciprocal change nothing.
* `Convergents.abs_worth_sub` — what another rest changes.
* `Tracks` — the invariant of an expansion; `Tracks.start` and `Tracks.round` are its steps.
* `Tracks.drift_le` — the bound on the drift.
-/

import Mathlib.Algebra.Order.Field.Basic
import Mathlib.Tactic.FieldSimp
import Mathlib.Tactic.Linarith
import Mathlib.Tactic.Positivity
import Mathlib.Tactic.Ring
import LedgerWire.Proofs.Price.Rounds

namespace LedgerWire.Price

/-! ### What convergents are worth -/

namespace Convergents

variable {c : Convergents} {x y f : ℚ} {term : Nat}

/-- The determinant of two consecutive convergents. -/
def det (c : Convergents) : ℤ := c.h * c.k' - c.h' * c.k

/-- One step turns the sign of the determinant and keeps its size. -/
theorem det_next (c : Convergents) (term : Nat) : (c.next term).det = -c.det := by
  unfold det next
  push_cast
  ring

/-- The determinant of the convergents stays one in size. -/
theorem abs_det_next (hdet : |c.det| = 1) (term : Nat) : |(c.next term).det| = 1 := by
  rw [det_next, abs_neg, hdet]

/-- The numerator of the convergents continued by `x`. -/
def numer (c : Convergents) (x : ℚ) : ℚ := c.h * x + c.h'

/-- The denominator of the convergents continued by `x`. -/
def denom (c : Convergents) (x : ℚ) : ℚ := c.k * x + c.k'

/-- The number whose expansion starts with these convergents and goes on with that of `x`. -/
def worth (c : Convergents) (x : ℚ) : ℚ := c.numer x / c.denom x

/-- What goes on with a number from one on has at least the sum of the two denominators. -/
theorem add_le_denom (c : Convergents) (hx : 1 ≤ x) : (c.k + c.k' : ℚ) ≤ c.denom x := by
  unfold denom
  have hk : (c.k : ℚ) * 1 ≤ c.k * x := mul_le_mul_of_nonneg_left hx (Nat.cast_nonneg _)
  linarith

/-- The numerator of the next convergent at the reciprocal is the one of this at the number, scaled.
-/
theorem numer_next (c : Convergents) (term : Nat) (hf : f ≠ 0) :
    (c.next term).numer (1 / f) = c.numer (term + f) / f := by
  unfold numer next
  push_cast
  field_simp
  ring

/-- The denominator of the next convergent at the reciprocal, scaled likewise. -/
theorem denom_next (c : Convergents) (term : Nat) (hf : f ≠ 0) :
    (c.next term).denom (1 / f) = c.denom (term + f) / f := by
  unfold denom next
  push_cast
  field_simp
  ring

/-- **A round keeps the worth**, as long as the reciprocal of what the term leaves is exact. -/
theorem worth_next (c : Convergents) (term : Nat) (hf : f ≠ 0) :
    (c.next term).worth (1 / f) = c.worth (term + f) := by
  unfold worth
  rw [numer_next c term hf, denom_next c term hf, div_div_div_cancel_right₀ hf]

/-- **Another rest changes the worth** by the change of the rest over both denominators. -/
theorem abs_worth_sub (hdet : |c.det| = 1) (hx : 0 < c.denom x) (hy : 0 < c.denom y) :
    |c.worth x - c.worth y| = |x - y| / (c.denom x * c.denom y) := by
  have hsub : c.worth x - c.worth y = c.det * (x - y) / (c.denom x * c.denom y) := by
    unfold worth
    rw [div_sub_div _ _ hx.ne' hy.ne']
    unfold numer denom det
    push_cast
    ring
  have hdet' : |(c.det : ℚ)| = 1 := by exact_mod_cast hdet
  rw [hsub, abs_div, abs_mul, hdet', one_mul, abs_of_pos (mul_pos hx hy)]

/-- **The last convergent misses the worth** by one over the denominators. -/
theorem abs_worth_mul_sub (hdet : |c.det| = 1) (hx : 0 < c.denom x) :
    |c.worth x * c.k - c.h| = 1 / c.denom x := by
  have hsub : c.worth x * c.k - c.h = -c.det / c.denom x := by
    unfold worth
    rw [div_mul_eq_mul_div, div_sub' hx.ne']
    unfold numer denom det
    push_cast
    ring
  have hdet' : |(c.det : ℚ)| = 1 := by exact_mod_cast hdet
  rw [hsub, abs_div, abs_neg, hdet', abs_of_pos hx]

end Convergents

/-! ### Numbers and rounded reciprocals -/

variable {value places term : Nat} {c c' : Convergents} {x₀ x f : ℚ}

/-- The number that a count of units of `10 ^ -places` is. -/
def numberOf (value places : Nat) : ℚ := value / 10 ^ places

/-- What the term of a round leaves of the number. -/
def leftOf (value places : Nat) : ℚ := partOf value places / 10 ^ places

/-- A number is its term and what the term leaves. -/
theorem numberOf_eq (value places : Nat) :
    numberOf value places = termOf value places + leftOf value places := by
  unfold numberOf leftOf
  have hvalue : (value : ℚ) = 10 ^ places * termOf value places + partOf value places := by
    exact_mod_cast value_eq value places
  rw [hvalue]
  field_simp

theorem leftOf_nonneg (value places : Nat) : 0 ≤ leftOf value places := by
  unfold leftOf
  positivity

theorem leftOf_pos (hpart : 0 < partOf value places) : 0 < leftOf value places := by
  unfold leftOf
  positivity

theorem leftOf_lt_one (value places : Nat) : leftOf value places < 1 := by
  unfold leftOf
  rw [div_lt_one (by positivity)]
  exact_mod_cast partOf_lt value places

/-- What is left, turned over, is the next number of the search. -/
theorem one_div_leftOf (value places : Nat) :
    1 / leftOf value places = (10 ^ places : ℕ) / (partOf value places : ℚ) := by
  unfold leftOf
  rw [one_div_div]
  push_cast
  rfl

/-- Half a unit of the places to which reciprocals are rounded. -/
def halfUnit : ℚ := 1 / (2 * 10 ^ 20)

theorem halfUnit_nonneg : 0 ≤ halfUnit := by
  unfold halfUnit
  positivity

/-- **A reciprocal is rounded to the nearest**: it is off by half a unit at most. -/
theorem abs_roundedQuotient_sub {unit part : Nat} (hpart : 0 < part) :
    |numberOf (roundedQuotient unit part reciprocalPlaces) reciprocalPlaces - unit / part|
      ≤ halfUnit := by
  have hdivide : part * (unit * 10 ^ 20 / part) + unit * 10 ^ 20 % part = unit * 10 ^ 20 :=
    Nat.div_add_mod _ _
  have hless : unit * 10 ^ 20 % part < part := Nat.mod_lt _ hpart
  rw [roundedQuotient_def]
  unfold numberOf halfUnit reciprocalPlaces
  generalize unit * 10 ^ 20 / part = quotient at *
  generalize unit * 10 ^ 20 % part = rest at *
  have hpart' : (0 : ℚ) < part := by exact_mod_cast hpart
  have hexact : (unit : ℚ) / part = (quotient + rest / part) / 10 ^ 20 := by
    have hdivide' : (part * quotient + rest : ℚ) = unit * 10 ^ 20 := by exact_mod_cast hdivide
    field_simp
    linarith
  rw [hexact]
  split
  -- Rounded up, at least half was left over; rounded down, less than half.
  · rename_i hup
    have hhalf : (1 : ℚ) / 2 ≤ rest / part := by
      rw [div_le_div_iff₀ two_pos hpart']
      exact_mod_cast by omega
    have hone : (rest : ℚ) / part < 1 := by
      rw [div_lt_one hpart']
      exact_mod_cast hless
    rw [abs_le]
    push_cast
    constructor
    · linarith
    · linarith
  · rename_i hdown
    have hnonneg : (0 : ℚ) ≤ rest / part := by positivity
    have hhalf : (rest : ℚ) / part < 1 / 2 := by
      rw [div_lt_div_iff₀ hpart' two_pos]
      exact_mod_cast by omega
    rw [abs_le]
    constructor
    · linarith
    · linarith

/-! ### The invariant -/

/-- The expansion of `x₀` has come to the convergents `c` and goes on with `x`: the worth of both is
near to `x₀`, the nearer the smaller the denominators still are. -/
structure Tracks (x₀ x : ℚ) (c : Convergents) : Prop where
  fits : c.Fits
  det : |c.det| = 1
  begun : c = .start ∨ 1 ≤ c.k ∧ 1 ≤ x
  drift : |c.worth x - x₀| ≤ (2 - 2 / (2 * c.k + c.k')) * halfUnit

namespace Tracks

/-- **The search starts on track**: before any step the tracked number is the number itself. -/
theorem start (value places : Nat) :
    Tracks (numberOf value places) (numberOf value places) .start where
  fits := by decide
  det := by decide
  begun := .inl rfl
  drift := by
    unfold Convergents.worth Convergents.numer Convergents.denom Convergents.start
    norm_num

/-- The two denominators held are never both zero. -/
theorem one_le_add (h : Tracks x₀ x c) : 1 ≤ c.k + c.k' := by
  rcases h.begun with rfl | ⟨hk, -⟩
  · decide
  · omega

theorem one_le_denom (h : Tracks x₀ x c) : 1 ≤ c.denom x := by
  rcases h.begun with rfl | ⟨-, hx⟩
  · simp [Convergents.denom, Convergents.start]
  · have hone : (1 : ℚ) ≤ c.k + c.k' := by exact_mod_cast h.one_le_add
    exact hone.trans (c.add_le_denom hx)

/-- **Over a whole expansion the worth drifts by a unit at most.** -/
theorem drift_le (h : Tracks x₀ x c) : |c.worth x - x₀| ≤ 1 / 10 ^ 20 := by
  refine h.drift.trans ?_
  have hpos : (0 : ℚ) ≤ 2 / (2 * c.k + c.k') := by positivity
  unfold halfUnit
  linarith

/-- Denominators grow like the Fibonacci numbers: in an expansion that has begun no term is zero. -/
theorem add_le_next (h : Tracks x₀ (term + f) c) (hf : f < 1) :
    c.k + c.k' ≤ (c.next term).k := by
  rcases h.begun with rfl | ⟨-, hx⟩
  · simp [Convergents.next, Convergents.start]
  · have hterm : 1 ≤ term := by
      have hpos : (0 : ℚ) < term := by linarith
      exact_mod_cast hpos
    have hgrow : c.k ≤ term * c.k := Nat.le_mul_of_pos_left _ hterm
    show _ ≤ term * c.k + c.k'
    omega

/-- The denominators grow: the next one is at least the sum of the two held. -/
theorem add_le_next_termOf (h : Tracks x₀ (numberOf value places) c) :
    c.k + c.k' ≤ (c.next (termOf value places)).k := by
  rw [numberOf_eq] at h
  exact h.add_le_next (leftOf_lt_one value places)

/-- No step leads to the denominator zero. -/
theorem one_le_next (h : Tracks x₀ (numberOf value places) c) :
    1 ≤ (c.next (termOf value places)).k :=
  h.one_le_add.trans h.add_le_next_termOf

/-- What a rounding adds to the drift is less than what the growth of the denominators leaves. -/
theorem drift_step (k k' k₁ : ℚ) (hk : 0 ≤ k) (hone : 1 ≤ k + k') (hgrow : k + k' ≤ k₁) :
    2 - 2 / (2 * k + k') + 1 / (k₁ + k) ^ 2 ≤ 2 - 2 / (2 * k₁ + k) := by
  have hsum : 0 < k₁ + k := by linarith
  have hnew : 0 < 2 * k₁ + k := by linarith
  have hold : 2 / (k₁ + k) ≤ 2 / (2 * k + k') := by
    refine div_le_div_of_nonneg_left two_pos.le ?_ ?_
    · linarith
    · linarith
  have hadded : 1 / (k₁ + k) ^ 2 ≤ 2 / (k₁ + k) - 2 / (2 * k₁ + k) := by
    rw [div_sub_div _ _ hsum.ne' hnew.ne', div_le_div_iff₀ (by positivity) (by positivity)]
    have hk₁ : 1 ≤ k₁ := hone.trans hgrow
    have hlarge : 2 * k₁ + k ≤ 2 * k₁ * (k₁ + k) := by nlinarith
    nlinarith [mul_le_mul_of_nonneg_right hlarge hsum.le]
  linarith

/-- **A round keeps the invariant.** The term and the exact reciprocal keep the worth, and rounding
the reciprocal changes it by less than half a unit over the square of the denominators. -/
theorem next (h : Tracks x₀ (term + f) c) (hfits : (c.next term).Fits) (hpos : 0 < f)
    (hone : f < 1) (hround : |x - 1 / f| ≤ halfUnit) (hx : 1 ≤ x) :
    Tracks x₀ x (c.next term) where
  fits := hfits
  det := Convergents.abs_det_next h.det term
  begun := .inr ⟨h.one_le_add.trans (h.add_le_next hone), hx⟩
  drift := by
    have hreciprocal : 1 ≤ 1 / f := by
      rw [le_div_iff₀ hpos]
      linarith
    have hsum : (0 : ℚ) < (c.next term).k + c.k := by
      have := h.one_le_add.trans (h.add_le_next hone)
      exact_mod_cast Nat.add_pos_left this _
    have hdenom : ((c.next term).k + c.k : ℚ) ≤ (c.next term).denom x :=
      Convergents.add_le_denom _ hx
    have hdenom' : ((c.next term).k + c.k : ℚ) ≤ (c.next term).denom (1 / f) :=
      Convergents.add_le_denom _ hreciprocal
    -- Rounding the reciprocal moves the worth by the rounding over the square of the denominators.
    have hrounded : |(c.next term).worth x - (c.next term).worth (1 / f)|
        ≤ 1 / ((c.next term).k + c.k) ^ 2 * halfUnit := by
      rw [Convergents.abs_worth_sub (Convergents.abs_det_next h.det term) (hsum.trans_le hdenom)
        (hsum.trans_le hdenom'), one_div_mul_eq_div, sq]
      have hsquare := mul_le_mul hdenom hdenom' hsum.le (hsum.le.trans hdenom)
      exact div_le_div₀ halfUnit_nonneg hround (mul_pos hsum hsum) hsquare
    rw [Convergents.worth_next c term hpos.ne'] at hrounded
    -- The drift so far and this one stay within the next bound, since the denominators grow.
    have hbound := drift_step c.k c.k' (c.next term).k
      (Nat.cast_nonneg _) (by exact_mod_cast h.one_le_add) (by exact_mod_cast h.add_le_next hone)
    calc |(c.next term).worth x - x₀|
        ≤ |(c.next term).worth x - c.worth (term + f)| + |c.worth (term + f) - x₀| :=
          abs_sub_le _ _ _
      _ ≤ 1 / ((c.next term).k + c.k) ^ 2 * halfUnit
          + (2 - 2 / (2 * c.k + c.k')) * halfUnit := add_le_add hrounded h.drift
      _ = (2 - 2 / (2 * c.k + c.k') + 1 / ((c.next term).k + c.k) ^ 2) * halfUnit := by ring
      _ ≤ (2 - 2 / (2 * (c.next term).k + c.k)) * halfUnit :=
          mul_le_mul_of_nonneg_right hbound halfUnit_nonneg

/-- **The invariant over a round of the expansion.** -/
theorem round {value' : Nat} (h : Tracks x₀ (numberOf value places) c)
    (hround : round value places c = .next value' c') :
    Tracks x₀ (numberOf value' reciprocalPlaces) c' := by
  obtain ⟨htakes, hleaves, rfl, rfl⟩ := round_eq_next_iff.1 hround
  have hpart := (not_exhausts_iff.1 hleaves).1
  rw [numberOf_eq] at h
  refine h.next htakes.2 (leftOf_pos hpart) (leftOf_lt_one value places) ?_ ?_
  · rw [one_div_leftOf]
    exact abs_roundedQuotient_sub hpart
  · have hvalue' := pow_le_roundedQuotient hpart (partOf_lt value places).le reciprocalPlaces
    unfold numberOf
    rw [le_div_iff₀ (by positivity), one_mul]
    exact_mod_cast hvalue'

/-- **The invariant over a whole expansion**: it holds when the last round begins. -/
theorem exists_last {rounds : Nat} (h : Tracks x₀ (numberOf value places) c)
    (hexpands : Expands rounds value places c c') :
    ∃ value' places' c₁, Tracks x₀ (numberOf value' places') c₁ ∧ c.k ≤ c₁.k
      ∧ Price.round value' places' c₁ = .last c' := by
  induction hexpands with
  | last hround => exact ⟨_, _, _, h, le_rfl, hround⟩
  | next hround _ ih =>
      obtain ⟨value', places', c₁, htracks, hk, hlast⟩ := ih (h.round hround)
      obtain ⟨-, -, rfl, -⟩ := round_eq_next_iff.1 hround
      refine ⟨value', places', c₁, htracks, le_trans ?_ hk, hlast⟩
      exact (Nat.le_add_right _ _).trans h.add_le_next_termOf

/-- What the last round ends with is as good as what it began with. -/
theorem last (h : Tracks x₀ (numberOf value places) c)
    (hround : Price.round value places c = .last c') :
    c'.Fits ∧ |c'.det| = 1 ∧ c.k ≤ c'.k := by
  rcases round_eq_last_iff.1 hround with ⟨-, rfl⟩ | ⟨htakes, -, rfl⟩
  · exact ⟨h.fits, h.det, le_rfl⟩
  · exact ⟨htakes.2, Convergents.abs_det_next h.det _,
      (Nat.le_add_right _ _).trans h.add_le_next_termOf⟩

end Tracks

end LedgerWire.Price
