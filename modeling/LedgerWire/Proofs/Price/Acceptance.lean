/-
# The decimals that are prices

What comes of a decimal text is decided by its parts alone: by its sign, by the number and the worth
of its digits, and by the whole part that it is read with. The expansion of a number takes its first
term, the whole part, exactly if that is not too large, and from then on there is a denominator.

* `fits_convergents`, `coprime_convergents`, `k_pos_convergents_iff` — the convergents of a number.
* `Decimal.Priced` — the numerals that have a price.
* `ofDecimal_of_priced` and its like — what comes of a text, one lemma an outcome.
* `ofDecimal_eq_ok_iff` — the texts that have a price, and which one.
* `ofDecimal_terms` — the terms of a price.
* `priced_iff` — the numerals that have one, by the digits that are written.
* `ofDecimal_farHalf` — a half, and texts that are taken for one.
-/

import Mathlib.RingTheory.Coprime.Lemmas
import LedgerWire.Proofs.Price.Places

namespace LedgerWire

namespace Price

open Text (Decimal natOfDigits)

/-! ### The convergents of a number -/

section Convergents

variable {value places : Nat}

/-- The first round takes its term if this is not too large. -/
theorem takes_start_iff : Takes value places .start ↔ termOf value places ≤ maxTerm := by
  unfold Takes Convergents.Fits Convergents.next Convergents.start maxTerm
  simp

/-- The convergents the search ends with fit a price. -/
theorem fits_convergents (value places : Nat) : (convergents value places).Fits := by
  obtain ⟨rounds, -, hexpands⟩ := expands_convergents value places
  obtain ⟨_, _, _, htracks, -, hlast⟩ := (Tracks.start value places).exists_last hexpands
  exact (htracks.last hlast).1

/-- **Convergents are in lowest terms**, since their determinant is a unit. -/
theorem coprime_convergents (value places : Nat) :
    Nat.Coprime (convergents value places).h (convergents value places).k := by
  obtain ⟨rounds, -, hexpands⟩ := expands_convergents value places
  obtain ⟨_, _, _, htracks, -, hlast⟩ := (Tracks.start value places).exists_last hexpands
  have hdet := (htracks.last hlast).2.1
  generalize convergents value places = c at hdet
  rw [← Nat.isCoprime_iff_coprime]
  unfold Convergents.det at hdet
  rcases (abs_eq zero_le_one).1 hdet with hone | hminus
  · exact ⟨c.k', -c.h', by linarith⟩
  · exact ⟨-c.k', c.h', by linarith⟩

/-- **There is a denominator** exactly if the first term is not too large. -/
theorem k_pos_convergents_iff :
    0 < (convergents value places).k ↔ termOf value places ≤ maxTerm := by
  obtain ⟨rounds, -, hexpands⟩ := expands_convergents value places
  generalize convergents value places = c at hexpands
  rw [← takes_start_iff]
  cases hexpands with
  | last hround =>
      rcases round_eq_last_iff.1 hround with ⟨hstops, rfl⟩ | ⟨htakes, -, rfl⟩
      · exact iff_of_false (Nat.lt_irrefl 0) hstops
      · exact iff_of_true (by simp [Convergents.next, Convergents.start]) htakes
  | next hround hexpands =>
      have htakes := (round_eq_next_iff.1 hround).1
      have htracks := (Tracks.start value places).round hround
      obtain ⟨_, _, _, hends, hgrow, hlast⟩ := htracks.exists_last hexpands
      have hgrow' := (hends.last hlast).2.2
      have hone := (Tracks.start value places).one_le_next
      obtain ⟨-, -, rfl, -⟩ := round_eq_next_iff.1 hround
      exact iff_of_true (hone.trans (hgrow.trans hgrow')) htakes

end Convergents

/-! ### What comes of a text -/

/-- The ratio of the later one of the convergents. -/
def Convergents.price (c : Convergents) : Price := ⟨Int32.ofNat c.h, Int32.ofNat c.k⟩

/-- A convergent that fits keeps its two terms when it becomes a price. -/
theorem Convergents.toInt_price {c : Convergents} (h : c.Fits) :
    c.price.n.toInt = c.h ∧ c.price.d.toInt = c.k :=
  ⟨Int32.toInt_ofNat_of_lt (Nat.lt_succ_of_le h.1), Int32.toInt_ofNat_of_lt (Nat.lt_succ_of_le h.2)⟩

/-- The numeral has a price: it has no minus, counts few enough digits, and is read with a whole
part that fits. -/
structure Priced (d : Decimal) : Prop where
  sign : d.negative = false
  places : countedPlaces d ≤ maxPlaces
  digits : d.digits < 2 ^ 128
  whole : readWhole d ≤ maxTerm

variable {s : String} {d : Decimal}

/-- A text that spells no decimal number is refused as one. -/
theorem ofDecimal_of_not_numeral (h : ∀ d : Decimal, ¬d.SpelledBy s) :
    ofDecimal s = .error (.validation "price" (.notDecimal s)) := by
  unfold ofDecimal
  rw [Decimal.ofText?_eq_none h]

/-- The verdict on a numeral, as its parts decide it. -/
theorem ofDecimal_of_spelledBy (h : d.SpelledBy s) :
    ofDecimal s = if d.negative then .error (.validation "price" (.negativeDecimal s))
      else if maxPlaces < countedPlaces d ∨ 2 ^ 128 ≤ d.digits then
        .error (.precision (.priceDigits s))
      else if (convergents d.digits (countedPlaces d)).k = 0 then
        .error (.precision (.priceRange s))
      else .ok (convergents d.digits (countedPlaces d)).price := by
  unfold ofDecimal
  rw [Decimal.ofText?_eq_some_iff.2 h]
  rfl

/-- A number with a minus sign is refused, zero included. -/
theorem ofDecimal_of_negative (h : d.SpelledBy s) (hsign : d.negative = true) :
    ofDecimal s = .error (.validation "price" (.negativeDecimal s)) := by
  rw [ofDecimal_of_spelledBy h, if_pos hsign]

/-- The expansion finds no denominator exactly if the whole part is too large. -/
theorem k_eq_zero_iff (d : Decimal) :
    (convergents d.digits (countedPlaces d)).k = 0 ↔ ¬readWhole d ≤ maxTerm := by
  rw [readWhole, ← k_pos_convergents_iff, Nat.pos_iff_ne_zero, not_not]

/-- The price of a numeral has a denominator. -/
theorem Priced.k_pos (hpriced : Priced d) : 0 < (convergents d.digits (countedPlaces d)).k :=
  k_pos_convergents_iff.2 hpriced.whole

/-- A numeral within the rules is priced by the convergents of its digits. -/
theorem ofDecimal_of_priced (h : d.SpelledBy s) (hpriced : Priced d) :
    ofDecimal s = .ok (convergents d.digits (countedPlaces d)).price := by
  have hdigits : ¬(maxPlaces < countedPlaces d ∨ 2 ^ 128 ≤ d.digits) :=
    not_or.2 ⟨Nat.not_lt.2 hpriced.places, Nat.not_le.2 hpriced.digits⟩
  rw [ofDecimal_of_spelledBy h, hpriced.sign, if_neg Bool.false_ne_true, if_neg hdigits,
    if_neg hpriced.k_pos.ne']

/-- A numeral without a minus and without a price is not precise enough for one. -/
theorem ofDecimal_of_not_priced (h : d.SpelledBy s) (hsign : d.negative = false)
    (hpriced : ¬Priced d) : ∃ why, ofDecimal s = .error (.precision why) := by
  rw [ofDecimal_of_spelledBy h, hsign, if_neg Bool.false_ne_true]
  by_cases hdigits : maxPlaces < countedPlaces d ∨ 2 ^ 128 ≤ d.digits
  · exact ⟨_, if_pos hdigits⟩
  · rw [if_neg hdigits]
    obtain ⟨hplaces, hlarge⟩ := not_or.1 hdigits
    by_cases hk : (convergents d.digits (countedPlaces d)).k = 0
    · exact ⟨_, if_pos hk⟩
    · have hwhole := not_not.1 (mt (k_eq_zero_iff d).2 hk)
      exact absurd ⟨hsign, Nat.not_lt.1 hplaces, Nat.not_le.1 hlarge, hwhole⟩ hpriced

/-- **The numerals that have a price**, and which one. -/
theorem ofDecimal_eq_ok_iff {price : Price} (h : d.SpelledBy s) : ofDecimal s = .ok price ↔
    Priced d ∧ price = (convergents d.digits (countedPlaces d)).price := by
  constructor
  · intro hok
    by_cases hpriced : Priced d
    · rw [ofDecimal_of_priced h hpriced] at hok
      exact ⟨hpriced, (Except.ok.inj hok).symm⟩
    · cases hsign : d.negative with
      | true =>
          rw [ofDecimal_of_negative h hsign] at hok
          cases hok
      | false =>
          obtain ⟨why, herror⟩ := ofDecimal_of_not_priced h hsign hpriced
          rw [herror] at hok
          cases hok
  · rintro ⟨hpriced, rfl⟩
    exact ofDecimal_of_priced h hpriced

/-- A text with a price is a numeral. -/
theorem exists_spelledBy_of_ofDecimal {price : Price} (hok : ofDecimal s = .ok price) :
    ∃ d : Decimal, d.SpelledBy s := by
  by_contra hnone
  rw [ofDecimal_of_not_numeral (not_exists.1 hnone)] at hok
  cases hok

/-- **The terms of a price** are in range and have no common divisor. -/
theorem ofDecimal_terms {price : Price} (hok : ofDecimal s = .ok price) :
    0 ≤ price.n.toInt ∧ price.n.toInt ≤ 2147483647
      ∧ 1 ≤ price.d.toInt ∧ price.d.toInt ≤ 2147483647
      ∧ Int.gcd price.n.toInt price.d.toInt = 1 := by
  obtain ⟨d, hd⟩ := exists_spelledBy_of_ofDecimal hok
  obtain ⟨hpriced, rfl⟩ := (ofDecimal_eq_ok_iff hd).1 hok
  have hfits := fits_convergents d.digits (countedPlaces d)
  have hcoprime := coprime_convergents d.digits (countedPlaces d)
  have hk := hpriced.k_pos
  obtain ⟨hn, hd⟩ := Convergents.toInt_price hfits
  rw [hn, hd]
  exact ⟨Int.natCast_nonneg _, by exact_mod_cast hfits.1, by exact_mod_cast hk,
    by exact_mod_cast hfits.2, hcoprime⟩

/-- **The numerals that have a price**, by the digits that are written: those with few places and a
small whole part, and those with so many places that only a few of them are counted. -/
theorem priced_iff (h : d.SpelledBy s) : Priced d ↔
    d.negative = false ∧ d.digits < 2 ^ 128
      ∧ ((d.fraction.length ≤ maxPlaces ∧ natOfDigits d.whole ≤ maxTerm)
        ∨ (2 ^ 32 ≤ d.fraction.length ∧ countedPlaces d ≤ maxPlaces ∧ readWhole d ≤ maxTerm)) := by
  have hmax : maxPlaces < 2 ^ 32 := by decide
  constructor
  · rintro ⟨hsign, hplaces, hdigits, hwhole⟩
    refine ⟨hsign, hdigits, ?_⟩
    rcases Nat.lt_or_ge d.fraction.length (2 ^ 32) with hshort | hlong
    · rw [countedPlaces_of_lt hshort] at hplaces
      rw [readWhole_of_lt h hshort] at hwhole
      exact .inl ⟨hplaces, hwhole⟩
    · exact .inr ⟨hlong, hplaces, hwhole⟩
  · rintro ⟨hsign, hdigits, ⟨hplaces, hwhole⟩ | ⟨-, hplaces, hwhole⟩⟩
    · have hshort := hplaces.trans_lt hmax
      rw [← countedPlaces_of_lt hshort] at hplaces
      rw [← readWhole_of_lt h hshort] at hwhole
      exact ⟨hsign, hplaces, hdigits, hwhole⟩
    · exact ⟨hsign, hplaces, hdigits, hwhole⟩

/-- A half has its price, and so have the texts that are taken for one. -/
theorem ofDecimal_farHalf {zeros : Nat} (h : 2 ^ 32 ∣ zeros) :
    ofDecimal (farHalf zeros) = .ok ⟨1, 2⟩ := by
  have hplaces := countedPlaces_farHalf h
  have hpriced : Priced (farHalfParts zeros) := by
    refine ⟨rfl, ?_, ?_, ?_⟩
    · rw [hplaces]
      decide
    · rw [digits_farHalf]
      decide
    · rw [readWhole, digits_farHalf, hplaces]
      decide
  rw [ofDecimal_of_priced (spelledBy_farHalf zeros) hpriced, digits_farHalf, hplaces]
  decide

end Price

end LedgerWire
