/-
# The expansion over the rationals

An expansion computes with integers, in units that change after its first term, and it stops early
where a term leaves next to nothing. Over the rationals it is a plain loop: take the whole part of
the number into the convergents, stop where it does not fit or nothing is left, and go on with the
reciprocal of the rest, rounded to twenty places. Both end with the same convergents. The units do
not show in the number that they count, and a reciprocal beyond the largest term would only be found
too large by the next round. So the price of a text depends on the number alone that it is read as,
and texts of the same number are read as the same number.

* `Expansion` — the loop over the rationals, up to the convergents that it ends with.
* `Expansion.unique` — it ends with one pair of convergents at most.
* `rounded_one_div_leftOf` — a rounded reciprocal, with integers and over the rationals.
* `Expansion.of_round_last`, `Expansion.of_round_next` — what one round is over the rationals.
* `Expansion.of_expands` — what all the rounds are.
* `ExpandsTo` — the loop from a number ends with the terms of a price.
* `Expansion.of_le` — the loop from next to nothing.
* `ofDecimal_eq_expansion` — the price of a text is where the loop ends, in words of 128 bits and
  over the rationals.
* `not_expansion_farHalf` — it is not always where the loop ends from the number that is spelled.
-/

import Mathlib.Algebra.Order.Floor.Semifield
import Mathlib.Data.Rat.Floor
import LedgerWire.Proofs.Price.Words

namespace LedgerWire.Price

open Text (Decimal)

/-! ### The loop -/

/-- A number that is not negative, rounded to twenty places, a half upward. -/
def rounded (x : ℚ) : ℚ := ⌊x * 10 ^ 20 + 1 / 2⌋₊ / 10 ^ 20

/-- What the whole part of a number leaves. -/
def rest (x : ℚ) : ℚ := x - ⌊x⌋₊

/-- The expansion of a number that is not negative, from the last convergents that were taken to
those that it ends with. -/
inductive Expansion : ℚ → Convergents → Convergents → Prop
  | tooLarge {x : ℚ} {c : Convergents} : maxTerm < ⌊x⌋₊ → Expansion x c c
  | unfit {x : ℚ} {c : Convergents} : ⌊x⌋₊ ≤ maxTerm → ¬(c.next ⌊x⌋₊).Fits → Expansion x c c
  | whole {x : ℚ} {c : Convergents} : ⌊x⌋₊ ≤ maxTerm → (c.next ⌊x⌋₊).Fits → rest x = 0 →
      Expansion x c (c.next ⌊x⌋₊)
  | reciprocal {x : ℚ} {c last : Convergents} : ⌊x⌋₊ ≤ maxTerm → (c.next ⌊x⌋₊).Fits →
      rest x ≠ 0 → Expansion (rounded (1 / rest x)) (c.next ⌊x⌋₊) last → Expansion x c last

/-- **An expansion has one end.** -/
theorem Expansion.unique {x : ℚ} {c a b : Convergents} (ha : Expansion x c a)
    (hb : Expansion x c b) : a = b := by
  induction ha with
  | tooLarge hlarge =>
      cases hb with
      | tooLarge => rfl
      | unfit => rfl
      | whole hterm => exact absurd hlarge (Nat.not_lt.2 hterm)
      | reciprocal hterm => exact absurd hlarge (Nat.not_lt.2 hterm)
  | unfit hterm hunfit =>
      cases hb with
      | tooLarge => rfl
      | unfit => rfl
      | whole _ hfits => exact absurd hfits hunfit
      | reciprocal _ hfits => exact absurd hfits hunfit
  | whole hterm hfits hrest =>
      cases hb with
      | tooLarge hlarge => exact absurd hlarge (Nat.not_lt.2 hterm)
      | unfit _ hunfit => exact absurd hfits hunfit
      | whole => rfl
      | reciprocal _ _ hleft => exact absurd hrest hleft
  | reciprocal hterm hfits hleft _ ih =>
      cases hb with
      | tooLarge hlarge => exact absurd hlarge (Nat.not_lt.2 hterm)
      | unfit _ hunfit => exact absurd hfits hunfit
      | whole _ _ hrest => exact absurd hrest hleft
      | reciprocal _ _ _ hb => exact ih hb

/-! ### Integers and the numbers that they count -/

variable {value places : Nat} {c c' : Convergents}

/-- The term of a round is the floor of its number. -/
theorem floor_numberOf (value places : Nat) : ⌊numberOf value places⌋₊ = termOf value places := by
  have hunit : (10 : ℚ) ^ places = (10 ^ places : ℕ) := by push_cast; rfl
  rw [numberOf, hunit, Nat.floor_div_eq_div, termOf]

/-- What the floor leaves of the number is what the term of the round leaves. -/
theorem rest_numberOf (value places : Nat) :
    rest (numberOf value places) = leftOf value places := by
  rw [rest, floor_numberOf, numberOf_eq, add_sub_cancel_left]

/-- The term leaves nothing of the number exactly if it leaves no units of the count. -/
theorem leftOf_eq_zero_iff : leftOf value places = 0 ↔ partOf value places = 0 := by
  rw [leftOf, div_eq_zero_iff, Nat.cast_eq_zero, or_iff_left (by positivity)]

/-- A quotient is rounded by adding half of its divisor. -/
theorem roundedQuotient_eq_div {unit part places : Nat} (hpart : 0 < part) :
    roundedQuotient unit part places = (2 * (unit * 10 ^ places) + part) / (2 * part) := by
  have hless : unit * 10 ^ places % part < part := Nat.mod_lt _ hpart
  have hsplit : 2 * (unit * 10 ^ places) + part
      = 2 * part * (unit * 10 ^ places / part) + (2 * (unit * 10 ^ places % part) + part) := by
    conv_lhs => rw [← Nat.div_add_mod (unit * 10 ^ places) part]
    ring
  rw [roundedQuotient_def, hsplit, Nat.mul_add_div (by omega)]
  generalize unit * 10 ^ places % part = left at hless
  split
  · rename_i hup
    have hone : (2 * left + part) / (2 * part) = 1 :=
      Nat.div_eq_of_lt_le (by omega) (by omega)
    rw [hone]
  · rename_i hdown
    have hzero : (2 * left + part) / (2 * part) = 0 := Nat.div_eq_of_lt (by omega)
    rw [hzero, Nat.add_zero]

/-- **A rounded reciprocal** is the same with integers. -/
theorem rounded_one_div_leftOf (hpart : 0 < partOf value places) :
    rounded (1 / leftOf value places)
      = numberOf (roundedQuotient (10 ^ places) (partOf value places) reciprocalPlaces)
          reciprocalPlaces := by
  have hpart' : (partOf value places : ℚ) ≠ 0 := by exact_mod_cast hpart.ne'
  have hquotient : 1 / leftOf value places * 10 ^ 20 + 1 / 2
      = (2 * (10 ^ places * 10 ^ 20) + partOf value places : ℕ)
        / (2 * partOf value places : ℕ) := by
    rw [one_div_leftOf]
    push_cast
    field_simp
    ring
  rw [rounded, hquotient, Nat.floor_div_eq_div, roundedQuotient_eq_div hpart]
  rfl

/-- A rounded reciprocal has at least the whole part of the reciprocal. -/
theorem le_termOf_roundedQuotient {unit part : Nat} (hpart : 0 < part) (places : Nat) :
    unit / part ≤ termOf (roundedQuotient unit part places) places := by
  have hquotient : unit / part * 10 ^ places ≤ unit * 10 ^ places / part := by
    rw [Words.mul_div_eq hpart]
    exact Nat.le_add_right _ _
  rw [termOf, Nat.le_div_iff_mul_le (Nat.pow_pos (by decide)), roundedQuotient_def]
  split
  · exact Nat.le_succ_of_le hquotient
  · exact hquotient

/-! ### Rounds -/

namespace Expansion

/-- **What ends the rounds ends the loop.** Where next to nothing is left, the loop takes one more
reciprocal and finds it too large. -/
theorem of_round_last (hround : round value places c = .last c') :
    Expansion (numberOf value places) c c' := by
  have hfloor := floor_numberOf value places
  rcases round_eq_last_iff.1 hround with ⟨hstops, rfl⟩ | ⟨htakes, hends, rfl⟩
  -- No term is taken: it is too large itself, or what it leads to is.
  · rcases Nat.lt_or_ge maxTerm (termOf value places) with hlarge | hterm
    · exact .tooLarge (by rwa [hfloor])
    · refine .unfit (by rwa [hfloor]) ?_
      rw [hfloor]
      exact fun hfits => hstops ⟨hterm, hfits⟩
  · obtain ⟨hterm, hfits⟩ := htakes
    rw [← hfloor] at hterm hfits ⊢
    rcases Nat.eq_zero_or_pos (partOf value places) with hzero | hpart
    · refine .whole hterm hfits ?_
      rw [rest_numberOf]
      exact leftOf_eq_zero_iff.2 hzero
    -- Next to nothing is left: the expansion goes on with a term that is too large.
    · have hleft : rest (numberOf value places) ≠ 0 := by
        rw [rest_numberOf]
        exact mt leftOf_eq_zero_iff.1 hpart.ne'
      refine .reciprocal hterm hfits hleft (.tooLarge ?_)
      rw [rest_numberOf, rounded_one_div_leftOf hpart, floor_numberOf]
      exact (hends.resolve_left hpart.ne').trans_le (le_termOf_roundedQuotient hpart _)

/-- **What the rounds go on with** is what the loop goes on with. -/
theorem of_round_next {value' : Nat} {last : Convergents}
    (hround : round value places c = .next value' c')
    (h : Expansion (numberOf value' reciprocalPlaces) c' last) :
    Expansion (numberOf value places) c last := by
  obtain ⟨⟨hterm, hfits⟩, hleaves, rfl, rfl⟩ := round_eq_next_iff.1 hround
  have hpart := (not_exhausts_iff.1 hleaves).1
  rw [← floor_numberOf] at hterm hfits h
  rw [← rounded_one_div_leftOf hpart, ← rest_numberOf] at h
  refine .reciprocal hterm hfits ?_ h
  rw [rest_numberOf]
  exact mt leftOf_eq_zero_iff.1 hpart.ne'

/-- **The rounds are the loop.** By induction on the rounds. -/
theorem of_expands {rounds : Nat} (h : Expands rounds value places c c') :
    Expansion (numberOf value places) c c' := by
  induction h with
  | last hround => exact of_round_last hround
  | next hround _ ih => exact of_round_next hround ih

/-- Where the expansion of a number ends. -/
theorem convergents (value places : Nat) :
    Expansion (numberOf value places) .start (Price.convergents value places) := by
  obtain ⟨rounds, -, hexpands⟩ := expands_convergents value places
  exact of_expands hexpands

end Expansion

/-- **The units do not show**: what counts as the same number has the same convergents. -/
theorem convergents_eq_of_numberOf_eq {value' places' : Nat}
    (h : numberOf value places = numberOf value' places') :
    convergents value places = convergents value' places' := by
  have hexpansion := Expansion.convergents value places
  rw [h] at hexpansion
  exact hexpansion.unique (Expansion.convergents value' places')

/-! ### Prices -/

variable {s : String} {d : Decimal} {price : Price}

/-- The loop from a number comes to an end, and with the terms of the price. -/
structure ExpandsTo (x : ℚ) (price : Price) : Prop where
  ends : ∃ last, Expansion x .start last
  terms : ∀ last, Expansion x .start last → price.n.toInt = last.h ∧ price.d.toInt = last.k

/-- An expansion that ends in terms that fit gives the price made of them. -/
theorem ExpandsTo.of_expansion {x : ℚ} {last : Convergents} (h : Expansion x .start last)
    (hfits : last.Fits) : ExpandsTo x last.price where
  ends := ⟨last, h⟩
  terms := by
    intro other hother
    rw [hother.unique h]
    exact Convergents.toInt_price hfits

/-- What the convergents of a numeral are the end of. -/
theorem expandsTo_readValue (hs : d.SpelledBy s) (hok : ofDecimal s = .ok price) :
    ExpandsTo (readValue d) price := by
  obtain ⟨-, rfl⟩ := (ofDecimal_eq_ok_iff hs).1 hok
  exact .of_expansion (Expansion.convergents _ _) (fits_convergents _ _)

/-- A number beyond the largest term stays beyond it when it is rounded. -/
theorem lt_floor_rounded {x : ℚ} (h : 2 ^ 31 ≤ x) : maxTerm < ⌊rounded x⌋₊ := by
  have hscaled : 2 ^ 31 * 10 ^ 20 ≤ ⌊x * 10 ^ 20 + 1 / 2⌋₊ := by
    refine Nat.le_floor ?_
    push_cast
    linarith
  refine Nat.le_floor ?_
  rw [rounded, le_div_iff₀ (by positivity)]
  exact_mod_cast hscaled

/-- **The loop from next to nothing** takes one term, which is zero. -/
theorem Expansion.of_le {x : ℚ} (hpos : 0 ≤ x) (hsmall : x ≤ 1 / 2 ^ 31) :
    Expansion x .start ⟨0, 1, 1, 0⟩ := by
  have hfloor : ⌊x⌋₊ = 0 := Nat.floor_eq_zero.2 (hsmall.trans_lt (by norm_num))
  have hrest : rest x = x := by rw [rest, hfloor, Nat.cast_zero, sub_zero]
  have hterm : ⌊x⌋₊ ≤ maxTerm := hfloor ▸ Nat.zero_le _
  have hnext : Convergents.start.next ⌊x⌋₊ = ⟨0, 1, 1, 0⟩ := by
    rw [hfloor]
    rfl
  have hfits : (Convergents.start.next ⌊x⌋₊).Fits := by
    rw [hnext]
    decide
  rw [← hnext]
  rcases hpos.eq_or_lt with hzero | hpos
  · exact .whole hterm hfits (hrest.trans hzero.symm)
  · have hleft : rest x ≠ 0 := by
      rw [hrest]
      exact hpos.ne'
    refine .reciprocal hterm hfits hleft (.tooLarge (lt_floor_rounded ?_))
    rwa [hrest, le_one_div (by positivity) hpos]

/-- **With more places than the word can count** the loop ends at nothing. -/
theorem expandsTo_of_overlong (hs : d.SpelledBy s) (hok : ofDecimal s = .ok price)
    (hlong : 2 ^ 32 ≤ d.fraction.length) : ExpandsTo d.value ⟨0, 1⟩ := by
  obtain ⟨⟨hsign, -, hdigits, -⟩, -⟩ := (ofDecimal_eq_ok_iff hs).1 hok
  have hsmall := (value_le_of_overlong hsign hdigits hlong).trans
    (show (1 : ℚ) / 10 ^ 100 ≤ 1 / 2 ^ 31 by norm_num)
  exact .of_expansion (Expansion.of_le (value_nonneg hsign) hsmall) (by decide)

/-- **The price of a text is where the loop over the rationals ends**, from the number that the text
is read as, and so do the rounds in words of 128 bits. Unless there are more places than the word
can count, that is the number that it spells; from there the loop would end at nothing. And texts
that spell the same number have the same price. -/
theorem ofDecimal_eq_expansion (hs : d.SpelledBy s) (hok : ofDecimal s = .ok price) :
    ExpandsTo (readValue d) price
      ∧ (d.fraction.length < 2 ^ 32 → ExpandsTo d.value price)
      ∧ (2 ^ 32 ≤ d.fraction.length → ExpandsTo d.value ⟨0, 1⟩)
      ∧ Words.ofDecimal 47 s = some (.ok price)
      ∧ ∀ s' d' price', Decimal.SpelledBy d' s' → ofDecimal s' = .ok price' →
          d'.value = d.value → price' = price := by
  have hends := expandsTo_readValue hs hok
  refine ⟨hends, fun hshort => ?_, expandsTo_of_overlong hs hok, ?_,
    fun s' d' price' hs' hok' hvalue => ?_⟩
  · rwa [readValue_of_lt ((ofDecimal_eq_ok_iff hs).1 hok).1.sign hshort] at hends
  · rw [Words.ofDecimal_eq s le_rfl, hok]
  · obtain ⟨hpriced, rfl⟩ := (ofDecimal_eq_ok_iff hs).1 hok
    obtain ⟨hpriced', rfl⟩ := (ofDecimal_eq_ok_iff hs').1 hok'
    have hread := readValue_eq_of_value_eq hpriced'.sign hpriced.sign hpriced'.places hpriced.places
      hpriced'.digits hpriced.digits hvalue
    rw [convergents_eq_of_numberOf_eq hread]

/-- Just above five quarters the third term leaves next to nothing, however the number is spelled.
-/
theorem ofDecimal_eq_expansion_quarters :
    ∃ d d' : Decimal, d.SpelledBy "1.250000000000001" ∧ d'.SpelledBy "+01.25000000000000100"
      ∧ ofDecimal "1.250000000000001" = .ok ⟨5, 4⟩
      ∧ (∃ last, Expansion d.value .start last)
      ∧ (∀ last, Expansion d.value .start last → 5 = (last.h : ℤ) ∧ 4 = (last.k : ℤ))
      ∧ d'.value = d.value ∧ ofDecimal "+01.25000000000000100" = .ok ⟨5, 4⟩ := by
  have hs : Decimal.SpelledBy ⟨false, "1".toList, "250000000000001".toList⟩
      "1.250000000000001" := Decimal.ofText?_eq_some_iff.1 (by decide +kernel)
  have hs' : Decimal.SpelledBy ⟨false, "01".toList, "25000000000000100".toList⟩
      "+01.25000000000000100" := Decimal.ofText?_eq_some_iff.1 (by decide +kernel)
  have hok : ofDecimal "1.250000000000001" = .ok ⟨5, 4⟩ := by decide +kernel
  have hvalue : Decimal.value ⟨false, "01".toList, "25000000000000100".toList⟩
      = Decimal.value ⟨false, "1".toList, "250000000000001".toList⟩ := by
    have hdigits : Decimal.digits ⟨false, "1".toList, "250000000000001".toList⟩
        = 1250000000000001 := by decide +kernel
    have hdigits' : Decimal.digits ⟨false, "01".toList, "25000000000000100".toList⟩
        = 125000000000000100 := by decide +kernel
    have hplaces : "250000000000001".toList.length = 15 := by decide +kernel
    have hplaces' : "25000000000000100".toList.length = 17 := by decide +kernel
    rw [← Decimal.numberOf_digits rfl, ← Decimal.numberOf_digits rfl, hdigits, hdigits', hplaces,
      hplaces', numberOf, numberOf]
    norm_num
  obtain ⟨price', hok'⟩ : ∃ price', ofDecimal "+01.25000000000000100" = .ok price' :=
    ⟨⟨5, 4⟩, by decide +kernel⟩
  obtain ⟨-, hends, -, -, hsame⟩ := ofDecimal_eq_expansion hs hok
  rw [hsame _ _ _ hs' hok' hvalue] at hok'
  obtain ⟨hends, hterms⟩ := hends (by decide)
  exact ⟨_, _, hs, hs', hok, hends, hterms, hvalue, hok'⟩

/-- **Not every price is where the loop ends** that starts from the number its text spells: here
that is at nothing, and the price is a half. -/
theorem not_expansion_farHalf :
    ¬∀ (s : String) (d : Decimal) (price : Price), d.SpelledBy s → ofDecimal s = .ok price →
      ∀ last, Expansion d.value .start last → price.n.toInt = last.h ∧ price.d.toInt = last.k := by
  intro h
  have hs := spelledBy_farHalf (2 ^ 32)
  have hok := ofDecimal_farHalf (dvd_refl (2 ^ 32))
  obtain ⟨⟨last, hlast⟩, hnothing⟩ := expandsTo_of_overlong hs hok (overlong_farHalf le_rfl)
  have hhalf := (h _ _ _ hs hok last hlast).1
  exact absurd (hhalf.trans (hnothing last hlast).1.symm) (by decide)

end LedgerWire.Price
