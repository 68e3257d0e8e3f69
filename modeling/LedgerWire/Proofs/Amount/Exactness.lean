/-
# Amounts are read exactly

A text is read as an amount exactly if it is a numeral with at most seven digits after the point
whose number is a count of stroops, and then as that count. The digits are read one by one in a
signed word of 128 bits, with zeros behind them up to the seventh place, and the sign comes last.
A number that is too large for that word is too large for an amount as well, and zeros in front
never make one too large.

* `Words.ofText_eq` — reading in a word of 128 bits.
* `ofText_eq_ok_iff` — the numerals that are amounts, and which ones.
* `ofText_of_not_numeral`, `ofText_of_imprecise` — what comes of the others.
* `ofText_zeros` — zeros in front.
* `ofText_exact` — all of it, for every text.
-/

import LedgerWire.Amount
import LedgerWire.Proofs.Text.Value
import LedgerWire.Proofs.Wire.Writing

namespace LedgerWire.Amount

open Text (Decimal natOfDigits)

/-! ### Words of 128 bits -/

/-- A count of stroops that an amount can hold. -/
def IsCount (n : Int) : Prop := -0x8000000000000000 ≤ n ∧ n < 0x8000000000000000

instance (n : Int) : Decidable (IsCount n) := inferInstanceAs (Decidable (_ ∧ _))

namespace Words

/-- The stroops that a numeral counts, if every number on the way to them is one of 128 bits and the
last is one of 64. -/
def stroops? (d : Decimal) : Option Int := do
  let places := (d.fraction ++ List.replicate decimals '0').take decimals
  let magnitude ← (d.whole ++ places).foldlM (Text.pushBelow (2 ^ 127)) 0
  let n : Int := if d.negative then -magnitude else magnitude
  if IsCount n then some n else none

/-- The amount that a decimal text spells. -/
def ofText (s : String) : Except WireError Amount :=
  match Decimal.ofText? s with
  | none => .error (.validation "amount" (.notDecimal s))
  | some d =>
      if decimals < d.fraction.length then .error (.precision (.fractionDigits s))
      else match stroops? d with
        | none => .error (.precision (.amountRange s))
        | some n => .ok ⟨Int64.ofInt n⟩

variable {d : Decimal}

/-- The digits with zeros up to the seventh place. -/
theorem natOfDigits_places (h : d.fraction.length ≤ decimals) :
    natOfDigits (d.whole ++ (d.fraction ++ List.replicate decimals '0').take decimals)
      = d.digits * 10 ^ (decimals - d.fraction.length) := by
  have hplaces : (d.fraction ++ List.replicate decimals '0').take decimals
      = d.fraction ++ List.replicate (decimals - d.fraction.length) '0' := by
    rw [List.take_append, List.take_of_length_le h, List.take_replicate,
      Nat.min_eq_left (Nat.sub_le _ _)]
  rw [hplaces, ← List.append_assoc, Text.natOfDigits_append_zeros]
  rfl

/-- **A word of 128 bits is large enough** for every number that is one of 64 in the end. -/
theorem stroops?_eq (h : d.fraction.length ≤ decimals) :
    stroops? d = if IsCount (d.scaled decimals) then some (d.scaled decimals) else none := by
  unfold stroops? Decimal.scaled
  simp only [Text.foldlM_pushBelow_zero _ (Nat.two_pow_pos 127), natOfDigits_places h,
    Nat.pow_eq]
  generalize d.digits * 10 ^ (decimals - d.fraction.length) = magnitude
  by_cases hfits : magnitude < 2 ^ 127
  · rw [Text.below_of_lt hfits]
    rfl
  · have hlarge := Nat.not_lt.1 hfits
    have hrange : ¬IsCount (if d.negative then -(magnitude : ℤ) else magnitude) := by
      unfold IsCount
      split <;> omega
    rw [Text.below_of_le hlarge, if_neg hrange]
    rfl

end Words

/-! ### What comes of a text -/

variable {s : String} {d : Decimal} {a : Amount}

/-- A text that spells no decimal number is refused as one, and the error quotes it. -/
theorem ofText_of_not_numeral (h : ∀ d : Decimal, ¬d.SpelledBy s) :
    ofText s = .error (.validation "amount" (.notDecimal s)) := by
  unfold ofText
  rw [Decimal.ofText?_eq_none h]

/-- The verdict on a numeral, as its parts decide it. -/
theorem ofText_of_spelledBy (h : d.SpelledBy s) :
    ofText s = if decimals < d.fraction.length then .error (.precision (.fractionDigits s))
      else if IsCount (d.scaled decimals) then .ok ⟨Int64.ofInt (d.scaled decimals)⟩
      else .error (.precision (.amountRange s)) := by
  unfold ofText
  rw [Decimal.ofText?_eq_some_iff.2 h]
  rfl

/-- **Reading in a word of 128 bits** comes to the same, for every text. -/
theorem Words.ofText_eq (s : String) : Words.ofText s = Amount.ofText s := by
  by_cases hnumeral : ∃ d : Decimal, d.SpelledBy s
  · obtain ⟨d, hd⟩ := hnumeral
    rw [ofText_of_spelledBy hd]
    unfold Words.ofText
    rw [Decimal.ofText?_eq_some_iff.2 hd]
    by_cases hplaces : decimals < d.fraction.length
    · simp only [if_pos hplaces]
    · simp only [if_neg hplaces, stroops?_eq (Nat.not_lt.1 hplaces)]
      by_cases hcount : IsCount (d.scaled decimals)
      · rw [if_pos hcount, if_pos hcount]
      · rw [if_neg hcount, if_neg hcount]
  · have hnone := not_exists.1 hnumeral
    rw [ofText_of_not_numeral hnone]
    unfold Words.ofText
    rw [Decimal.ofText?_eq_none hnone]

/-- The stroops of an amount are a count. -/
theorem isCount_stroops (a : Amount) : IsCount a.stroops.toInt :=
  ⟨a.stroops.le_toInt, a.stroops.toInt_lt⟩

/-- **The numerals that are amounts**, and which ones. -/
theorem ofText_eq_ok_iff (h : d.SpelledBy s) :
    ofText s = .ok a ↔ d.fraction.length ≤ decimals ∧ a.stroops.toInt = d.scaled decimals := by
  rw [ofText_of_spelledBy h]
  by_cases hplaces : decimals < d.fraction.length
  · rw [if_pos hplaces]
    refine iff_of_false (fun hok => by cases hok) ?_
    rintro ⟨hfew, -⟩
    exact Nat.not_lt.2 hfew hplaces
  · rw [if_neg hplaces]
    by_cases hcount : IsCount (d.scaled decimals)
    · rw [if_pos hcount]
      constructor
      · intro hok
        cases hok
        exact ⟨Nat.not_lt.1 hplaces, Int64.toInt_ofInt_of_le hcount.1 hcount.2⟩
      · rintro ⟨-, hvalue⟩
        rw [← hvalue, Int64.ofInt_toInt]
    · rw [if_neg hcount]
      refine iff_of_false (fun hok => by cases hok) ?_
      rintro ⟨-, hvalue⟩
      exact hcount (hvalue ▸ a.isCount_stroops)

/-! ### Numbers -/

/-- **A numeral is an amount** of as many stroops as ten million times its number. -/
theorem ofText_eq_ok_iff_value (h : d.SpelledBy s) : ofText s = .ok a ↔
    d.fraction.length ≤ decimals ∧ (a.stroops.toInt : ℚ) = d.value * 10 ^ decimals := by
  rw [ofText_eq_ok_iff h]
  refine and_congr_right fun hplaces => ?_
  rw [← Decimal.scaled_eq hplaces, Int.cast_inj]

/-- The number of a numeral with few enough places is a count exactly if it is in range. -/
theorem isCount_scaled_iff (hplaces : d.fraction.length ≤ decimals) :
    IsCount (d.scaled decimals)
      ↔ -2 ^ 63 ≤ d.value * 10 ^ decimals ∧ d.value * 10 ^ decimals < 2 ^ 63 := by
  rw [← Decimal.scaled_eq hplaces]
  unfold IsCount
  norm_cast

/-- **Of the other numerals**, those with more places and those out of range are too precise. -/
theorem ofText_of_imprecise (h : d.SpelledBy s)
    (himprecise : decimals < d.fraction.length
      ∨ ¬(-2 ^ 63 ≤ d.value * 10 ^ decimals ∧ d.value * 10 ^ decimals < 2 ^ 63)) :
    ∃ why, ofText s = .error (.precision why) := by
  rw [ofText_of_spelledBy h]
  by_cases hplaces : decimals < d.fraction.length
  · exact ⟨_, if_pos hplaces⟩
  · have hrange := himprecise.resolve_left hplaces
    rw [← isCount_scaled_iff (Nat.not_lt.1 hplaces)] at hrange
    rw [if_neg hplaces, if_neg hrange]
    exact ⟨_, rfl⟩

/-- **Zeros in front** change neither whether a text is an amount nor which one it is. -/
theorem ofText_zeros {zeros : Nat} {t : String} (h : d.SpelledBy s)
    (hzeros : Decimal.SpelledBy { d with whole := List.replicate zeros '0' ++ d.whole } t) :
    ofText t = .ok a ↔ ofText s = .ok a := by
  rw [ofText_eq_ok_iff_value h, ofText_eq_ok_iff_value hzeros, Decimal.value_zeros]

/-- A text that is an amount is a numeral. -/
theorem exists_spelledBy_of_ofText (hok : ofText s = .ok a) : ∃ d : Decimal, d.SpelledBy s := by
  by_contra hnone
  rw [ofText_of_not_numeral (not_exists.1 hnone)] at hok
  cases hok

/-- **Amounts are read exactly.** A text is read as `n` stroops exactly if it is a numeral with at
most seven digits after the point, its number times ten million is `n`, and `n` is a number of 64
bits. A text that is no numeral is not valid; a numeral with more digits after the point, or out of
range, is too precise. Zeros in front change nothing, and neither does reading digit by digit in a
word of 128 bits. -/
theorem ofText_exact (s : String) :
    (∀ n : ℤ, (∃ a, ofText s = .ok a ∧ a.stroops.toInt = n) ↔
        ∃ d : Decimal, d.SpelledBy s ∧ d.fraction.length ≤ 7 ∧ (n : ℚ) = d.value * 10 ^ 7
          ∧ -2 ^ 63 ≤ n ∧ n < 2 ^ 63)
      ∧ ((∀ d : Decimal, ¬d.SpelledBy s) → ∃ e, ofText s = .error e ∧ e.IsValidation)
      ∧ (∀ d : Decimal, d.SpelledBy s →
          7 < d.fraction.length ∨ ¬(-2 ^ 63 ≤ d.value * 10 ^ 7 ∧ d.value * 10 ^ 7 < 2 ^ 63) →
          ∃ e, ofText s = .error e ∧ e.IsPrecision)
      ∧ (∀ (d : Decimal) (zeros : Nat) (t : String), d.SpelledBy s →
          Decimal.SpelledBy { d with whole := List.replicate zeros '0' ++ d.whole } t →
          ∀ a, ofText t = .ok a ↔ ofText s = .ok a)
      ∧ Words.ofText s = ofText s := by
  refine ⟨fun n => ⟨?_, ?_⟩, ?_, ?_, ?_, Words.ofText_eq s⟩
  · rintro ⟨a, hok, rfl⟩
    obtain ⟨d, hd⟩ := exists_spelledBy_of_ofText hok
    obtain ⟨hplaces, hvalue⟩ := (ofText_eq_ok_iff_value hd).1 hok
    exact ⟨d, hd, hplaces, hvalue, a.stroops.le_toInt, a.stroops.toInt_lt⟩
  · rintro ⟨d, hd, hplaces, hvalue, hlow, hhigh⟩
    -- In the range of the type, no bit of the number is lost.
    have hn : (Int64.ofInt n).toInt = n := Int64.toInt_ofInt_of_le hlow hhigh
    refine ⟨⟨Int64.ofInt n⟩, (ofText_eq_ok_iff_value hd).2 ⟨hplaces, ?_⟩, hn⟩
    rw [hn]
    exact hvalue
  · intro hnone
    exact ⟨_, ofText_of_not_numeral hnone, _, _, rfl⟩
  · intro d hd himprecise
    obtain ⟨why, hwhy⟩ := ofText_of_imprecise hd himprecise
    exact ⟨_, hwhy, why, rfl⟩
  · intro d zeros t hd ht a
    exact ofText_zeros hd ht

/-- The range has no middle: the least amount has no counterpart. -/
theorem ofText_exact_least :
    (∃ a, ofText "-922337203685.4775808" = .ok a ∧ a.stroops.toInt = -2 ^ 63)
      ∧ (∃ e, ofText "+922337203685.4775808" = .error e ∧ e.IsPrecision)
      ∧ (∀ a, ofText "-000922337203685.4775808" = .ok a ↔ ofText "-922337203685.4775808" = .ok a)
      ∧ ∃ e, ofText "--1" = .error e ∧ e.IsValidation := by
  have hleast : Decimal.SpelledBy ⟨true, "922337203685".toList, "4775808".toList⟩
      "-922337203685.4775808" := Decimal.ofText?_eq_some_iff.1 (by decide +kernel)
  have hlarge : Decimal.SpelledBy ⟨false, "922337203685".toList, "4775808".toList⟩
      "+922337203685.4775808" := Decimal.ofText?_eq_some_iff.1 (by decide +kernel)
  have hzeros : Decimal.SpelledBy ⟨true, "000922337203685".toList, "4775808".toList⟩
      "-000922337203685.4775808" := Decimal.ofText?_eq_some_iff.1 (by decide +kernel)
  have hplaces : "4775808".toList.length = 7 := by decide +kernel
  have hwhole : natOfDigits "922337203685".toList = 922337203685 := by decide +kernel
  have hfraction : natOfDigits "4775808".toList = 4775808 := by decide +kernel
  refine ⟨((ofText_exact _).1 (-2 ^ 63)).2 ⟨_, hleast, hplaces.le, ?_, le_rfl, by norm_num⟩,
    (ofText_exact _).2.2.1 _ hlarge (.inr ?_), (ofText_exact _).2.2.2.1 _ 3 _ hleast hzeros,
    (ofText_exact _).2.1 ?_⟩
  · unfold Decimal.value
    rw [hwhole, hfraction, hplaces]
    norm_num
  · unfold Decimal.value
    rw [hwhole, hfraction, hplaces]
    norm_num
  · intro d hd
    have hnone : Decimal.ofText? "--1" = none := by decide +kernel
    rw [Decimal.ofText?_eq_some_iff.2 hd] at hnone
    cases hnone

end LedgerWire.Amount
