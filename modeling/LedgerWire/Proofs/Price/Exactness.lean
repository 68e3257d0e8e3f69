/-
# Decimals that are prices exactly

A fraction `p/q` that the expansion of a decimal comes near to is itself what the convergents make
of another fraction `u/v`, and a round turns `u/v` into the reciprocal of what its term leaves.
Beside a fraction with terms as small as those of a price, the drift of the worth is so little that
the number left to expand stays within one over `v` of `u/v`. So the expansion takes the terms of
`p/q` one by one. It does not stop before the last, since the convergents on the way have no larger
terms than `p/q`, and it does not go on behind it, since the next denominator would be far too
large.

* `Convergents.Meets` — a fraction is what the convergents make of another.
* `Tracks.abs_sub_mul_le` — how near the number left to expand stays to that fraction.
* `Tracks.takes`, `Tracks.eq_zero_of_exhausts`, `Tracks.not_takes` — no round stops too early or
  too late.
* `Tracks.ends_with` — the whole expansion, by induction on its rounds.
* `readValue_eq_of_isPrice` — a fraction with such terms is read as it is spelled.
* `ofDecimal_exact` — a decimal that is a fraction with the terms of a price has that price.
-/

import LedgerWire.Proofs.Price.Accuracy

namespace LedgerWire.Price

open Text (Decimal)

variable {value places term u v w p q : Nat} {c c' : Convergents} {x₀ x : ℚ}

/-! ### Fractions that convergents meet -/

/-- A fraction in lowest terms whose terms a price may have. -/
structure IsPrice (p q : Nat) : Prop where
  num_le : p ≤ maxTerm
  den_pos : 0 < q
  den_le : q ≤ maxTerm
  coprime : p.Coprime q

namespace Convergents

/-- The fraction `p/q` is what the convergents make of `u/v`. -/
structure Meets (c : Convergents) (u v p q : Nat) : Prop where
  num : p = c.h * u + c.h' * v
  den : q = c.k * u + c.k' * v

namespace Meets

/-- Before any step the target is met from the number itself. -/
theorem start (p q : Nat) : start.Meets p q p q where
  num := by simp [Convergents.start]
  den := by simp [Convergents.start]

/-- A term and the reciprocal of what it leaves make the same. -/
theorem next (h : c.Meets (term * v + w) v p q) : (c.next term).Meets v w p q where
  num := by
    rw [h.num]
    unfold Convergents.next
    ring
  den := by
    rw [h.den]
    unfold Convergents.next
    ring

/-- Convergents on the way to a fraction have no larger terms. -/
theorem le (h : c.Meets u v p q) (hu : 1 ≤ u) : c.h ≤ p ∧ c.k ≤ q := by
  rw [h.num, h.den]
  exact ⟨(Nat.le_mul_of_pos_right _ hu).trans (Nat.le_add_right _ _),
    (Nat.le_mul_of_pos_right _ hu).trans (Nat.le_add_right _ _)⟩

/-- What makes a fraction in lowest terms is in lowest terms. -/
theorem coprime (h : c.Meets u v p q) (hpq : p.Coprime q) : u.Coprime v := by
  have hu : u.gcd v ∣ u := Nat.gcd_dvd_left u v
  have hv : u.gcd v ∣ v := Nat.gcd_dvd_right u v
  have hp : u.gcd v ∣ p := by
    rw [h.num]
    exact dvd_add (hu.mul_left _) (hv.mul_left _)
  have hq : u.gcd v ∣ q := by
    rw [h.den]
    exact dvd_add (hu.mul_left _) (hv.mul_left _)
  exact Nat.eq_one_of_dvd_coprimes hpq hp hq

/-- The fraction is reached where nothing is left of it. -/
theorem reached (h : c.Meets u 0 p q) (hpq : p.Coprime q) : c.h = p ∧ c.k = q := by
  have hone : u = 1 := by simpa using h.coprime hpq
  rw [h.num, h.den, hone]
  simp

/-- **How far the worth is from the fraction.** -/
theorem abs_worth_sub (h : c.Meets u v p q) (hdet : |c.det| = 1) (hx : 0 < c.denom x)
    (hq : 0 < q) : |c.worth x - p / q| = |x * v - u| / (c.denom x * q) := by
  have hq' : (0 : ℚ) < q := by exact_mod_cast hq
  have hdet' : |(c.det : ℚ)| = 1 := by exact_mod_cast hdet
  have hsub : c.worth x - p / q = c.det * (x * v - u) / (c.denom x * q) := by
    unfold worth
    rw [div_sub_div _ _ hx.ne' hq'.ne', h.num, h.den]
    unfold numer denom det
    push_cast
    ring
  rw [hsub, abs_div, abs_mul, hdet', one_mul, abs_of_pos (mul_pos hx hq')]

end Meets

end Convergents

/-! ### The rounds before the fraction is reached -/

/-- What is next to nothing is less than one over the largest term. -/
theorem leftOf_mul_le_of_exhausts (hends : Exhausts value places) :
    leftOf value places * 2 ^ 31 ≤ 1 := by
  rcases Nat.eq_zero_or_pos (partOf value places) with hzero | hpart
  · rw [leftOf, hzero]
    norm_num
  · have hlarge := le_one_div_leftOf hpart (hends.resolve_left hpart.ne')
    rwa [le_div_iff₀ (leftOf_pos hpart), mul_comm] at hlarge

namespace Tracks

section Near

variable (h : Tracks (p / q) x c) (hprice : IsPrice p q) (hmeets : c.Meets u v p q)
include h hprice hmeets

/-- The drift leaves what is left to expand near to the fraction that the convergents meet. -/
theorem abs_sub_le : |x * v - u| ≤ c.denom x * q / 10 ^ 20 := by
  have hdenom : 0 < c.denom x := one_pos.trans_le h.one_le_denom
  have hq : (0 : ℚ) < q := by exact_mod_cast hprice.den_pos
  have hdrift := h.drift_le
  rw [hmeets.abs_worth_sub h.det hdenom hprice.den_pos, div_le_iff₀ (mul_pos hdenom hq)] at hdrift
  rwa [one_div_mul_eq_div] at hdrift

/-- **What is left to expand stays near** to the fraction that the convergents meet: with the terms
of a price, the continued denominator is hardly more than `q`. -/
theorem abs_sub_mul_le : |x * v - u| * v ≤ (1 + |x * v - u|) / 20 := by
  have hk : (c.k : ℚ) ≤ 2147483647 := by exact_mod_cast h.fits.2
  have hq : (q : ℚ) ≤ 2147483647 := by exact_mod_cast hprice.den_le
  have hnear := h.abs_sub_le hprice hmeets
  have hdenom : c.denom x * v = c.k * (x * v - u) + q := by
    rw [hmeets.den]
    unfold Convergents.denom
    push_cast
    ring
  have he : 0 ≤ |x * v - u| := abs_nonneg _
  -- Times `v` the denominator is the one of the target and what the distance adds to it.
  have hgrown : c.denom x * v ≤ 2147483647 * (1 + |x * v - u|) := by
    have hleft := mul_le_mul_of_nonneg_left (le_abs_self (x * v - u)) (Nat.cast_nonneg (α := ℚ) c.k)
    have hright := mul_le_mul_of_nonneg_right hk he
    rw [hdenom]
    linarith
  calc |x * v - u| * v
      ≤ c.denom x * q / 10 ^ 20 * v := mul_le_mul_of_nonneg_right hnear (Nat.cast_nonneg v)
    _ = c.denom x * v * q / 10 ^ 20 := by ring
    _ ≤ 2147483647 * (1 + |x * v - u|) * 2147483647 / 10 ^ 20 := by
        refine div_le_div_of_nonneg_right ?_ (by positivity)
        exact mul_le_mul hgrown hq (Nat.cast_nonneg q) (by positivity)
    _ ≤ (1 + |x * v - u|) / 20 := by linarith

/-- Where something is left of the fraction, the distance is less than one. -/
theorem abs_sub_le_inv (hv : 1 ≤ v) : |x * v - u| ≤ 1 / 19 := by
  have hv' : (1 : ℚ) ≤ v := by exact_mod_cast hv
  have hnear := h.abs_sub_mul_le hprice hmeets
  have hself := mul_le_mul_of_nonneg_left hv' (abs_nonneg (x * v - u))
  linarith

/-- **The expansion takes the terms of the fraction**: no term is larger than what is left of it. -/
theorem mul_le (hv : 1 ≤ v) (hterm : term ≤ x) : term * v ≤ u := by
  have hclose := (abs_le.1 (h.abs_sub_le_inv hprice hmeets hv)).2
  have hmul : (term * v : ℚ) ≤ x * v := mul_le_mul_of_nonneg_right hterm (Nat.cast_nonneg v)
  have hless : ((term * v : ℕ) : ℚ) < (u + 1 : ℕ) := by
    push_cast
    linarith
  exact Nat.le_of_lt_succ (by exact_mod_cast hless)

end Near

variable (h : Tracks (p / q) (numberOf value places) c) (hprice : IsPrice p q)
include h hprice

/-- **No round stops before the fraction is reached**: the next convergent is on the way to it. -/
theorem takes (hmeets : c.Meets (termOf value places * v + w) v p q) (hv : 1 ≤ v) :
    Takes value places c := by
  obtain ⟨hh, hk⟩ := hmeets.next.le hv
  refine ⟨?_, hh.trans hprice.num_le, hk.trans hprice.den_le⟩
  rcases h.begun with rfl | ⟨hone, -⟩
  · refine le_trans ?_ (hh.trans hprice.num_le)
    simp [Convergents.next, Convergents.start]
  · refine le_trans ?_ (hk.trans hprice.den_le)
    exact (Nat.le_mul_of_pos_right _ hone).trans (Nat.le_add_right _ _)

/-- **No term leaves next to nothing before the fraction is reached**: what is left of the fraction
would be at least one over `v`, and the number left to expand is nearer to it than that. -/
theorem eq_zero_of_exhausts (hmeets : c.Meets (termOf value places * v + w) v p q) (hv : 1 ≤ v)
    (hends : Exhausts value places) : w = 0 := by
  have hnear := h.abs_sub_mul_le hprice hmeets
  have hclose := h.abs_sub_le_inv hprice hmeets hv
  have hleft := leftOf_mul_le_of_exhausts hends
  have hv' : (v : ℚ) ≤ 2147483647 := by
    have hle : v ≤ q := by
      rw [hmeets.next.den]
      exact (Nat.le_mul_of_pos_left _ h.one_le_next).trans (Nat.le_add_right _ _)
    exact_mod_cast hle.trans hprice.den_le
  have hpush : numberOf value places * v - (termOf value places * v + w : ℕ)
      = leftOf value places * v - w := by
    rw [numberOf_eq]
    push_cast
    ring
  rw [hpush] at hnear hclose
  by_contra hw
  have hw' : (1 : ℚ) ≤ w := by exact_mod_cast Nat.one_le_iff_ne_zero.2 hw
  have hproduct := mul_le_mul_of_nonneg_right hleft (Nat.cast_nonneg (α := ℚ) v)
  have hfar := (neg_le_abs (leftOf value places * v - w))
  generalize |leftOf value places * v - w| = e at *
  -- The distance is one unit at least, and `v` is nearly the largest term.
  have he : 1 / 2 ^ 31 ≤ e := by linarith
  have hlarge : 2 ^ 31 * (18 / 19) ≤ (v : ℚ) := by linarith
  have hmul := mul_le_mul he hlarge (by positivity) (le_trans (by positivity) he)
  linarith

/-- **No round goes on behind the fraction**: the next denominator would be far too large. -/
theorem not_takes (hmeets : c.Meets u 0 p q) : ¬Takes value places c := by
  intro htakes
  have hone : u = 1 := by simpa using hmeets.coprime hprice.coprime
  have hfar := h.abs_sub_le hprice hmeets
  have hnext : ((c.next (termOf value places)).k : ℚ) ≤ 2147483647 := by
    exact_mod_cast htakes.2.2
  have hk : (c.k : ℚ) ≤ 2147483647 := by exact_mod_cast h.fits.2
  have hq : (q : ℚ) ≤ 2147483647 := by exact_mod_cast hprice.den_le
  -- A term that fits keeps the denominator small, while the target asks for a large one.
  have hdenom : c.denom (numberOf value places) ≤ 2 * 2147483647 := by
    have hless := mul_le_mul_of_nonneg_left (leftOf_lt_one value places).le
      (Nat.cast_nonneg (α := ℚ) c.k)
    have hsplit : c.denom (numberOf value places)
        = (c.next (termOf value places)).k + c.k * leftOf value places := by
      rw [numberOf_eq]
      unfold Convergents.denom Convergents.next
      push_cast
      ring
    rw [hsplit]
    linarith
  have hmul := mul_le_mul hdenom hq (Nat.cast_nonneg q) (by norm_num)
  rw [hone] at hfar
  norm_num at hfar
  linarith

end Tracks

/-! ### The whole expansion -/

/-- **An expansion ends with the fraction that its convergents meet.** By induction on its rounds,
each of which takes the next term of the fraction. -/
theorem Tracks.ends_with {rounds : Nat} (h : Tracks (p / q) (numberOf value places) c)
    (hprice : IsPrice p q) (hmeets : c.Meets u v p q)
    (hexpands : Expands rounds value places c c') : c'.h = p ∧ c'.k = q := by
  induction hexpands generalizing u v with
  -- With `v` at zero the convergents are there, and else one term leads there.
  | last hround =>
      rcases Nat.eq_zero_or_pos v with rfl | hv
      · rcases round_eq_last_iff.1 hround with ⟨-, rfl⟩ | ⟨htakes, -⟩
        · exact hmeets.reached hprice.coprime
        · exact absurd htakes (h.not_takes hprice hmeets)
      · obtain ⟨w, rfl⟩ := Nat.exists_eq_add_of_le
          (h.mul_le hprice hmeets hv (termOf_le_numberOf _ _))
        rcases round_eq_last_iff.1 hround with ⟨hstops, -⟩ | ⟨-, hends, rfl⟩
        · exact absurd (h.takes hprice hmeets hv) hstops
        · obtain rfl := h.eq_zero_of_exhausts hprice hmeets hv hends
          exact hmeets.next.reached hprice.coprime
  | next hround _ ih =>
      -- The target meets the next round with what the term leaves of it.
      obtain ⟨htakes, -, rfl, -⟩ := round_eq_next_iff.1 hround
      rcases Nat.eq_zero_or_pos v with rfl | hv
      · exact absurd htakes (h.not_takes hprice hmeets)
      · obtain ⟨w, rfl⟩ := Nat.exists_eq_add_of_le
          (h.mul_le hprice hmeets hv (termOf_le_numberOf _ _))
        exact ih (h.round hround) hmeets.next

/-- **The convergents of a fraction with the terms of a price** are that fraction. -/
theorem convergents_eq (hprice : IsPrice p q) (hvalue : numberOf value places = p / q) :
    (convergents value places).h = p ∧ (convergents value places).k = q := by
  obtain ⟨rounds, -, hexpands⟩ := expands_convergents value places
  have htracks : Tracks (p / q) (numberOf value places) .start := by
    rw [← hvalue]
    exact Tracks.start value places
  exact htracks.ends_with hprice (.start p q) hexpands

/-! ### Prices -/

/-- **A fraction with the terms of a price is read as it is spelled.** A numeral with more places
than the word can count spells less than any of them, unless it spells nothing. -/
theorem readValue_eq_of_isPrice {d : Decimal} (hpriced : Priced d) (hprice : IsPrice p q)
    (hvalue : d.value = p / q) : readValue d = p / q := by
  rcases Nat.lt_or_ge d.fraction.length (2 ^ 32) with hshort | hlong
  · rw [readValue_of_lt hpriced.sign hshort, hvalue]
  · have hsmall := value_le_of_overlong hpriced.sign hpriced.digits hlong
    have hq : (0 : ℚ) < q := by exact_mod_cast hprice.den_pos
    have hq' : (q : ℚ) ≤ 2147483647 := by exact_mod_cast hprice.den_le
    rw [hvalue, div_le_iff₀ hq] at hsmall
    have hless : (p : ℚ) < 1 := by linarith
    have hzero : p = 0 := Nat.lt_one_iff.1 (by exact_mod_cast hless)
    rw [readValue_eq hpriced.sign, hvalue, hzero, Nat.cast_zero, zero_div, zero_mul]

/-- **A decimal that is a fraction with the terms of a price has exactly that price.** -/
theorem ofDecimal_exact {s : String} {d : Decimal} {price : Price} (hs : d.SpelledBy s)
    (hok : ofDecimal s = .ok price) (hvalue : d.value = p / q) (hcoprime : p.Coprime q)
    (hp : p ≤ 2147483647) (hq : 1 ≤ q) (hq' : q ≤ 2147483647) :
    price.n.toInt = p ∧ price.d.toInt = q := by
  obtain ⟨hpriced, rfl⟩ := (ofDecimal_eq_ok_iff hs).1 hok
  have hprice : IsPrice p q := ⟨hp, hq, hq', hcoprime⟩
  obtain ⟨hn, hd⟩ := Convergents.toInt_price (fits_convergents d.digits (countedPlaces d))
  obtain ⟨hh, hk⟩ := convergents_eq hprice (readValue_eq_of_isPrice hpriced hprice hvalue)
  rw [hn, hd, hh, hk]
  exact ⟨rfl, rfl⟩

/-- Near the golden ratio the terms are small, and this fraction is reached after 39 rounds. -/
theorem ofDecimal_exact_golden :
    Decimal.SpelledBy ⟨false, "1".toList, "618033933453261852264404296875".toList⟩
        "1.618033933453261852264404296875"
      ∧ ∃ price, ofDecimal "1.618033933453261852264404296875" = .ok price
        ∧ price.n.toInt = 1737350707 ∧ price.d.toInt = 1073741824 := by
  have hs : Decimal.SpelledBy ⟨false, "1".toList, "618033933453261852264404296875".toList⟩
      "1.618033933453261852264404296875" :=
    Decimal.ofText?_eq_some_iff.1 (by decide +kernel)
  have hok : ofDecimal "1.618033933453261852264404296875" = .ok ⟨1737350707, 1073741824⟩ := by
    decide +kernel
  have hvalue : Decimal.value ⟨false, "1".toList, "618033933453261852264404296875".toList⟩
      = (1737350707 : ℕ) / (1073741824 : ℕ) := by
    have hwhole : Text.natOfDigits "1".toList = 1 := by decide +kernel
    have hfraction : Text.natOfDigits "618033933453261852264404296875".toList
        = 618033933453261852264404296875 := by decide +kernel
    have hplaces : "618033933453261852264404296875".toList.length = 30 := by decide +kernel
    unfold Decimal.value
    rw [hwhole, hfraction, hplaces]
    norm_num
  exact ⟨hs, _, hok, ofDecimal_exact hs hok hvalue (by norm_num) (by norm_num) (by norm_num)
    (by norm_num)⟩

end LedgerWire.Price
