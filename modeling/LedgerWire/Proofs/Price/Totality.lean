/-
# Every text has a price or a fault

The price of a decimal text is found in words of 128 bits, for every text and without a step that
could spoil one. A text has a price if it is a numeral without a minus, of few enough digits and
with a whole part that fits, and then the price is in lowest terms. Numerals with so many places
that only a few of them are counted have a price as well. Of the other texts, those with a minus and
those that are no numerals are not valid, and the rest are not precise enough.

* `exists_isValidation`, `isPrecision_of_error` — the faults of the texts without a price.
* `ofDecimal_total` — all of it, for every text.
* `not_refused_farHalf` — a text with a price that has too many places for one.
-/

import LedgerWire.Proofs.Price.Words
import LedgerWire.Proofs.Wire.Writing

namespace LedgerWire.Price

open Text (Decimal natOfDigits)

variable {s : String} {price : Price}

/-- **The numerals that have a price.** -/
theorem exists_ofDecimal_iff : (∃ price, ofDecimal s = .ok price) ↔
    ∃ d : Decimal, d.SpelledBy s ∧ Priced d := by
  constructor
  · rintro ⟨price, hok⟩
    obtain ⟨d, hd⟩ := exists_spelledBy_of_ofDecimal hok
    exact ⟨d, hd, ((ofDecimal_eq_ok_iff hd).1 hok).1⟩
  · rintro ⟨d, hd, hpriced⟩
    exact ⟨_, ofDecimal_of_priced hd hpriced⟩

/-- **A text with a minus, and one that is no numeral**, is not valid. -/
theorem exists_isValidation
    (h : s.toList.head? = some '-' ∨ ∀ d : Decimal, ¬d.SpelledBy s) :
    ∃ e, ofDecimal s = .error e ∧ e.IsValidation := by
  by_cases hnumeral : ∃ d : Decimal, d.SpelledBy s
  · obtain ⟨d, hd⟩ := hnumeral
    have hminus : s.toList.head? = some '-' := h.resolve_right fun hnone => hnone d hd
    exact ⟨_, ofDecimal_of_negative hd (hd.head?_eq_minus_iff.1 hminus), _, _, rfl⟩
  · exact ⟨_, ofDecimal_of_not_numeral (not_exists.1 hnumeral), _, _, rfl⟩

/-- **A numeral without a minus** that has no price is not precise enough for one. -/
theorem isPrecision_of_error {d : Decimal} {e : WireError} (hd : d.SpelledBy s)
    (hminus : s.toList.head? ≠ some '-') (herror : ofDecimal s = .error e) : e.IsPrecision := by
  have hsign : d.negative = false := Bool.eq_false_iff.2 (mt hd.head?_eq_minus_iff.2 hminus)
  have hpriced : ¬Priced d := by
    intro hpriced
    rw [ofDecimal_of_priced hd hpriced] at herror
    cases herror
  obtain ⟨why, hwhy⟩ := ofDecimal_of_not_priced hd hsign hpriced
  rw [hwhy] at herror
  exact ⟨why, (Except.error.inj herror).symm⟩

/-- **Every text has a price or a fault.** The expansion in checked words comes to an end, within 47
rounds, and to the same; the texts with a price and the faults of the others are as they should be,
and a price is in range and in lowest terms. -/
theorem ofDecimal_total (s : String) :
    (∀ rounds ≥ 47, Words.ofDecimal rounds s = some (ofDecimal s))
      ∧ ((∃ price, ofDecimal s = .ok price) ↔
          ∃ d : Decimal, d.SpelledBy s ∧ d.negative = false ∧ d.digits < 2 ^ 128
            ∧ ((d.fraction.length ≤ 30 ∧ natOfDigits d.whole ≤ 2147483647)
              ∨ (2 ^ 32 ≤ d.fraction.length ∧ d.fraction.length % 2 ^ 32 ≤ 30
                ∧ d.digits / 10 ^ (d.fraction.length % 2 ^ 32) ≤ 2147483647)))
      ∧ ((s.toList.head? = some '-' ∨ ∀ d : Decimal, ¬d.SpelledBy s) →
          ∃ e, ofDecimal s = .error e ∧ e.IsValidation)
      ∧ (s.toList.head? ≠ some '-' → (∃ d : Decimal, d.SpelledBy s) →
          ∀ e, ofDecimal s = .error e → e.IsPrecision)
      ∧ ∀ price, ofDecimal s = .ok price →
          0 ≤ price.n.toInt ∧ price.n.toInt ≤ 2147483647
            ∧ 1 ≤ price.d.toInt ∧ price.d.toInt ≤ 2147483647
            ∧ Int.gcd price.n.toInt price.d.toInt = 1 := by
  refine ⟨fun rounds hrounds => Words.ofDecimal_eq s hrounds, ?_, exists_isValidation, ?_,
    fun price hok => ofDecimal_terms hok⟩
  -- Short of `2 ^ 32` places the whole part is the one written; past that it is cut from all digits.
  · rw [exists_ofDecimal_iff]
    refine exists_congr fun d => and_congr_right fun hd => ?_
    rw [priced_iff hd, readWhole, countedPlaces_eq_mod]
    rfl
  · rintro hminus ⟨d, hd⟩ e herror
    exact isPrecision_of_error hd hminus herror

/-- **A text with too many places** for a price, whose digit of a half is counted as the first, has
one nevertheless. -/
theorem not_refused_farHalf :
    ¬∀ s, (∃ price, ofDecimal s = .ok price) →
      ∃ d : Decimal, d.SpelledBy s ∧ d.negative = false ∧ d.fraction.length ≤ 30
        ∧ d.digits < 2 ^ 128 ∧ natOfDigits d.whole ≤ 2147483647 := by
  intro h
  obtain ⟨d, hd, -, hplaces, -⟩ := h (farHalf (2 ^ 32)) ⟨⟨1, 2⟩, ofDecimal_farHalf dvd_rfl⟩
  rw [hd.unique (spelledBy_farHalf _), length_farHalf] at hplaces
  exact absurd hplaces (by decide)

end LedgerWire.Price
