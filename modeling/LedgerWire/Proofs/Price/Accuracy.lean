/-
# How near a price comes to its decimal

An expansion ends for one of two reasons. The next term does not go into a price any more: then the
denominator of the convergents continued by what is left is beyond the largest term, or their
numerator is. Or the term taken last leaves nothing, or less than the largest term can invert: then
the denominator continued by that is beyond the largest term. Either way the last convergent misses
the worth by hardly more than one over the largest term, and the worth has drifted from the decimal
far less than that.

* `Tracks.one_div_denom_le` — where a term is not taken.
* `Tracks.miss_le_of_exhausts` — where a term leaves next to nothing.
* `miss_le` — the convergents of a number miss it by little.
* `Near` — what it means that a price is near to a number.
* `ofDecimal_near` — a price is near to the decimal that it was made of.
* `not_near_farHalf` — it is not near to every decimal with a price.
-/

import LedgerWire.Proofs.Price.Acceptance

namespace LedgerWire.Price

open Text (Decimal)

variable {value places term : Nat} {c c' : Convergents} {x₀ x : ℚ}

/-! ### Where an expansion ends -/

namespace Convergents

/-- The next denominator is at most the one the exact number would give. -/
theorem next_k_le_denom (c : Convergents) (hterm : term ≤ x) :
    ((c.next term).k : ℚ) ≤ c.denom x := by
  have hk := mul_le_mul_of_nonneg_left hterm (Nat.cast_nonneg (α := ℚ) c.k)
  unfold denom next
  push_cast
  linarith

/-- The next numerator is at most the one the exact number would give. -/
theorem next_h_le_numer (c : Convergents) (hterm : term ≤ x) :
    ((c.next term).h : ℚ) ≤ c.numer x := by
  have hh := mul_le_mul_of_nonneg_left hterm (Nat.cast_nonneg (α := ℚ) c.h)
  unfold numer next
  push_cast
  linarith

end Convergents

/-- The term of a round is at most its number. -/
theorem termOf_le_numberOf (value places : Nat) :
    (termOf value places : ℚ) ≤ numberOf value places := by
  have hleft := leftOf_nonneg value places
  rw [numberOf_eq]
  linarith

/-- Where a term is not taken, the next convergent would have a term that is too large. -/
theorem lt_next_of_not_takes (hk : 0 < c.k) (hstops : ¬Takes value places c) :
    maxTerm < (c.next (termOf value places)).k ∨ maxTerm < (c.next (termOf value places)).h := by
  by_contra hboth
  obtain ⟨hk', hh'⟩ := not_or.1 hboth
  refine hstops ⟨le_trans ?_ (Nat.not_lt.1 hk'), Nat.not_lt.1 hh', Nat.not_lt.1 hk'⟩
  exact (Nat.le_mul_of_pos_right _ hk).trans (Nat.le_add_right _ _)

/-- What is next to nothing has a reciprocal beyond the largest term. -/
theorem le_one_div_leftOf (hpart : 0 < partOf value places)
    (hlarge : maxTerm < 10 ^ places / partOf value places) :
    2 ^ 31 ≤ 1 / leftOf value places := by
  have hpart' : (0 : ℚ) < partOf value places := by exact_mod_cast hpart
  rw [one_div_leftOf, le_div_iff₀ hpart']
  exact_mod_cast (Nat.le_div_iff_mul_le hpart).1 hlarge

namespace Tracks

/-- **Where a term is not taken**, the continued denominator is large, or the numerator is, and then
the worth makes up for it. -/
theorem one_div_denom_le (h : Tracks x₀ (numberOf value places) c) (hk : 0 < c.k)
    (hstops : ¬Takes value places c) :
    1 / c.denom (numberOf value places) ≤ max 1 (c.worth (numberOf value places)) / 2 ^ 31 := by
  have hdenom : 0 < c.denom (numberOf value places) := one_pos.trans_le h.one_le_denom
  rcases lt_next_of_not_takes hk hstops with hlarge | hlarge
  -- Either the next denominator is too large, or the next numerator is.
  · have hlarge' : (2 : ℚ) ^ 31 ≤ (c.next (termOf value places)).k := by
      exact_mod_cast hlarge
    have hbound := hlarge'.trans (c.next_k_le_denom (termOf_le_numberOf value places))
    calc 1 / c.denom (numberOf value places)
        ≤ 1 / 2 ^ 31 := one_div_le_one_div_of_le (by positivity) hbound
      _ ≤ _ := div_le_div_of_nonneg_right (le_max_left _ _) (by positivity)
  · have hlarge' : (2 : ℚ) ^ 31 ≤ (c.next (termOf value places)).h := by
      exact_mod_cast hlarge
    have hbound := hlarge'.trans (c.next_h_le_numer (termOf_le_numberOf value places))
    have hnumer : 0 < c.numer (numberOf value places) := lt_of_lt_of_le (by positivity) hbound
    calc 1 / c.denom (numberOf value places)
        = c.worth (numberOf value places) / c.numer (numberOf value places) := by
          unfold Convergents.worth
          field_simp
      _ ≤ c.worth (numberOf value places) / 2 ^ 31 :=
          div_le_div_of_nonneg_left (div_pos hnumer hdenom).le (by positivity) hbound
      _ ≤ _ := div_le_div_of_nonneg_right (le_max_right _ _) (by positivity)

/-- **Where a term leaves nothing**, or next to nothing, the next convergent hits the worth, or
misses it by as little. -/
theorem miss_le_of_exhausts (h : Tracks x₀ (numberOf value places) c)
    (hends : Exhausts value places) :
    |c.worth (numberOf value places) * (c.next (termOf value places)).k
        - (c.next (termOf value places)).h| ≤ 1 / 2 ^ 31 := by
  have hk := h.one_le_next
  rcases Nat.eq_zero_or_pos (partOf value places) with hzero | hpart
  · have hworth : c.worth (numberOf value places)
        = (c.next (termOf value places)).h / (c.next (termOf value places)).k := by
      rw [numberOf_eq, leftOf, hzero]
      unfold Convergents.worth Convergents.numer Convergents.denom Convergents.next
      push_cast
      ring
    have hk' : ((c.next (termOf value places)).k : ℚ) ≠ 0 := by
      exact_mod_cast (Nat.one_le_iff_ne_zero.1 hk)
    rw [hworth, div_mul_cancel₀ _ hk', sub_self, abs_zero]
    positivity
  · have hlarge := le_one_div_leftOf hpart (hends.resolve_left hpart.ne')
    have hone : 1 ≤ 1 / leftOf value places := le_trans (by norm_num) hlarge
    have hdenom : 1 / leftOf value places
        ≤ (c.next (termOf value places)).denom (1 / leftOf value places) := by
      have hk' : (1 : ℚ) ≤ (c.next (termOf value places)).k := by exact_mod_cast hk
      have hgrow := mul_le_mul_of_nonneg_right hk' (zero_le_one.trans hone)
      have hold : (0 : ℚ) ≤ (c.next (termOf value places)).k' := Nat.cast_nonneg _
      unfold Convergents.denom
      linarith
    have hbound := hlarge.trans hdenom
    rw [numberOf_eq, ← Convergents.worth_next c _ (leftOf_pos hpart).ne',
      Convergents.abs_worth_mul_sub (Convergents.abs_det_next h.det _)
        (lt_of_lt_of_le (by positivity) hbound)]
    exact one_div_le_one_div_of_le (by positivity) hbound

/-- The convergents after the last round miss the worth before it by little. -/
theorem miss_le (h : Tracks x₀ (numberOf value places) c)
    (hround : Price.round value places c = .last c') (hk : 0 < c'.k) :
    |c.worth (numberOf value places) * c'.k - c'.h|
      ≤ max 1 (c.worth (numberOf value places)) / 2 ^ 31 := by
  rcases round_eq_last_iff.1 hround with ⟨hstops, rfl⟩ | ⟨-, hends, rfl⟩
  · rw [Convergents.abs_worth_mul_sub h.det (one_pos.trans_le h.one_le_denom)]
    exact h.one_div_denom_le hk hstops
  · refine (h.miss_le_of_exhausts hends).trans ?_
    exact div_le_div_of_nonneg_right (le_max_left _ _) (by positivity)

end Tracks

/-! ### The convergents of a number -/

/-- **The convergents of a number miss it by little**: what the worth before the last round is
missed by, and the drift of that worth. -/
theorem miss_le (hk : 0 < (convergents value places).k) :
    |numberOf value places * (convergents value places).k - (convergents value places).h|
      ≤ max 1 (numberOf value places) / 2 ^ 30 := by
  have hfits := (fits_convergents value places).2
  obtain ⟨rounds, -, hexpands⟩ := expands_convergents value places
  generalize convergents value places = last at *
  obtain ⟨value', places', c, htracks, -, hlast⟩ := (Tracks.start value places).exists_last hexpands
  have hmiss := htracks.miss_le hlast hk
  -- Two things are left: how far the last convergent misses the worth, and how far that drifted.
  have hdrift := htracks.drift_le
  generalize numberOf value places = x₀ at *
  generalize c.worth (numberOf value' places') = w at *
  have hk' : (last.k : ℚ) ≤ 2 ^ 31 := by exact_mod_cast hfits.trans (by decide)
  have hmoved : |(x₀ - w) * last.k| ≤ 1 / 10 ^ 20 * 2 ^ 31 := by
    rw [abs_mul, abs_sub_comm, Nat.abs_cast]
    exact mul_le_mul hdrift hk' (Nat.cast_nonneg _) (by positivity)
  have hworth : max 1 w ≤ max 1 x₀ + 1 / 10 ^ 20 := by
    have hnear := (abs_le.1 hdrift).2
    refine max_le ?_ ?_
    · linarith [le_max_left 1 x₀, show (0 : ℚ) ≤ 1 / 10 ^ 20 by positivity]
    · linarith [le_max_right 1 x₀]
  have hone : 1 ≤ max 1 x₀ := le_max_left 1 x₀
  calc |x₀ * last.k - last.h|
      = |(x₀ - w) * last.k + (w * last.k - last.h)| := by ring_nf
    _ ≤ |(x₀ - w) * last.k| + |w * last.k - last.h| := abs_add_le _ _
    _ ≤ 1 / 10 ^ 20 * 2 ^ 31 + (max 1 x₀ + 1 / 10 ^ 20) / 2 ^ 31 := by
        refine add_le_add hmoved (hmiss.trans ?_)
        exact div_le_div_of_nonneg_right hworth (by positivity)
    _ ≤ max 1 x₀ / 2 ^ 30 := by linarith

/-! ### Prices -/

/-- The price misses the number by little, in its terms and as a ratio. -/
structure Near (x : ℚ) (price : Price) : Prop where
  terms : |x * price.d.toInt - price.n.toInt| ≤ max 1 x / 2 ^ 30
  ratio : |(price.n.toInt / price.d.toInt : ℚ) - x| ≤ max 1 x / (price.d.toInt * 2 ^ 30)

section

variable {s : String} {d : Decimal} {price : Price}

/-- A ratio misses a number by what its terms do, over its denominator. -/
theorem Near.of_terms (hd : 1 ≤ price.d.toInt)
    (h : |x * price.d.toInt - price.n.toInt| ≤ max 1 x / 2 ^ 30) : Near x price where
  terms := h
  ratio := by
    have hd' : (0 : ℚ) < price.d.toInt := by exact_mod_cast hd
    have hquotient : (price.n.toInt / price.d.toInt : ℚ) - x
        = -(x * price.d.toInt - price.n.toInt) / price.d.toInt := by
      field_simp
      ring
    rw [hquotient, abs_div, abs_neg, abs_of_pos hd', mul_comm (price.d.toInt : ℚ) (2 ^ 30),
      ← div_div]
    exact div_le_div_of_nonneg_right h hd'.le

/-- **A price is near to the number that its decimal is read as.** -/
theorem near_readValue (hs : d.SpelledBy s) (hok : ofDecimal s = .ok price) :
    Near (readValue d) price := by
  obtain ⟨-, -, hone, -⟩ := ofDecimal_terms hok
  obtain ⟨hpriced, rfl⟩ := (ofDecimal_eq_ok_iff hs).1 hok
  obtain ⟨hn, hd⟩ := Convergents.toInt_price (fits_convergents d.digits (countedPlaces d))
  refine .of_terms hone ?_
  rw [hn, hd]
  exact_mod_cast miss_le hpriced.k_pos

/-- **With more places than the word can count** a decimal is near to no price but nothing. -/
theorem near_iff_of_overlong (hs : d.SpelledBy s) (hok : ofDecimal s = .ok price)
    (hlong : 2 ^ 32 ≤ d.fraction.length) : Near d.value price ↔ price.n.toInt = 0 := by
  obtain ⟨hn, -, hone, hd, -⟩ := ofDecimal_terms hok
  obtain ⟨⟨hsign, -, hdigits, -⟩, -⟩ := (ofDecimal_eq_ok_iff hs).1 hok
  have hpos := value_nonneg hsign
  have hsmall := value_le_of_overlong hsign hdigits hlong
  have hmax : max 1 d.value = 1 := max_eq_left (hsmall.trans (by norm_num))
  have hd' : (price.d.toInt : ℚ) ≤ 2147483647 := by exact_mod_cast hd
  have hone' : (0 : ℚ) ≤ price.d.toInt := by exact_mod_cast zero_le_one.trans hone
  have hproduct : d.value * price.d.toInt ≤ 1 / 10 ^ 100 * 2147483647 :=
    mul_le_mul hsmall hd' hone' (by positivity)
  constructor
  -- Times any denominator so small a number stays far below one, so the numerator is zero.
  · intro hnear
    have hmiss := (abs_le.1 (hmax ▸ hnear.terms)).1
    have hless : (price.n.toInt : ℚ) < 1 := by linarith
    have hless' : price.n.toInt < 1 := by exact_mod_cast hless
    omega
  · intro hzero
    refine .of_terms hone ?_
    rw [hmax, hzero, Int.cast_zero, sub_zero, abs_of_nonneg (mul_nonneg hpos hone')]
    exact hproduct.trans (by norm_num)

/-- **A price is near to the decimal that it was made of**: always to the number that this is read
as, and so to the number that it spells, unless it has more places than the word can count. Then it
is near to that number only if it is nothing. -/
theorem ofDecimal_near (hs : d.SpelledBy s) (hok : ofDecimal s = .ok price) :
    Near (readValue d) price
      ∧ (d.fraction.length < 2 ^ 32 → Near d.value price)
      ∧ (2 ^ 32 ≤ d.fraction.length → (Near d.value price ↔ price.n.toInt = 0)) := by
  have hnear := near_readValue hs hok
  refine ⟨hnear, fun hshort => ?_, near_iff_of_overlong hs hok⟩
  rwa [readValue_of_lt ((ofDecimal_eq_ok_iff hs).1 hok).1.sign hshort] at hnear

/-- The golden ratio has the longest expansion, of 47 rounds, and the next term does not fit. -/
theorem ofDecimal_near_golden :
    ∃ d : Decimal, d.SpelledBy "0.618033988749894848204586834366"
      ∧ ofDecimal "0.618033988749894848204586834366" = .ok ⟨1134903170, 1836311903⟩
      ∧ |d.value * 1836311903 - 1134903170| ≤ max 1 d.value / 2 ^ 30
      ∧ |1134903170 / 1836311903 - d.value| ≤ max 1 d.value / (1836311903 * 2 ^ 30) := by
  have hs : Decimal.SpelledBy ⟨false, "0".toList, "618033988749894848204586834366".toList⟩
      "0.618033988749894848204586834366" :=
    Decimal.ofText?_eq_some_iff.1 (by decide +kernel)
  have hok : ofDecimal "0.618033988749894848204586834366" = .ok ⟨1134903170, 1836311903⟩ := by
    decide +kernel
  have hn : (1134903170 : Int32).toInt = 1134903170 := by decide
  have hd : (1836311903 : Int32).toInt = 1836311903 := by decide
  obtain ⟨hterms, hratio⟩ := (ofDecimal_near hs hok).2.1 (by decide)
  rw [hn, hd, Int.cast_ofNat, Int.cast_ofNat] at hterms hratio
  exact ⟨_, hs, hok, hterms, hratio⟩

/-- **Not every price is near** to the number that its decimal spells: here that is next to nothing,
and the price is a half. -/
theorem not_near_farHalf :
    ¬∀ (s : String) (d : Decimal) (price : Price), d.SpelledBy s → ofDecimal s = .ok price →
      |d.value * price.d.toInt - price.n.toInt| ≤ max 1 d.value / 2 ^ 30 := by
  intro h
  have hs := spelledBy_farHalf (2 ^ 32)
  have hok := ofDecimal_farHalf (dvd_refl (2 ^ 32))
  have hnear := Near.of_terms (by decide) (h _ _ _ hs hok)
  have hzero := (near_iff_of_overlong hs hok (overlong_farHalf le_rfl)).1 hnear
  exact absurd hzero (by decide)

end

end LedgerWire.Price
