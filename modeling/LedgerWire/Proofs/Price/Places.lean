/-
# The places that a decimal counts

The digits after the point of a numeral are counted by a word of 32 bits. That makes no difference
below `2 ^ 32` of them. From there on the count starts at zero again, and the numeral is read as if
its point stood further behind: for a number that is larger by a power of ten. Its digits fit into
128 bits all the same, so the number that it spells is next to nothing.

* `countedPlaces_eq_mod`, `countedPlaces_of_lt` — what the word counts.
* `readValue`, `readWhole` — the number that a numeral is read as, and its whole part.
* `readValue_eq`, `readValue_of_lt`, `readWhole_of_lt` — how they relate to the number it spells.
* `value_le_of_overlong` — numerals with more places than the word can count.
* `readValue_eq_of_value_eq` — the same number is read as the same number.
* `farHalf` — numerals that are read as a half.
-/

import LedgerWire.Proofs.Price.Drift
import LedgerWire.Proofs.Text.Value

namespace LedgerWire

/-! ### Numerals -/

namespace Text.Decimal

variable {d : Decimal}

/-- The digits count units of the last place. -/
theorem numberOf_digits (hsign : d.negative = false) :
    Price.numberOf d.digits d.fraction.length = d.value := by
  unfold Price.numberOf value
  rw [digits_eq, hsign]
  push_cast
  field_simp

/-- The first term of the expansion is the whole part. -/
theorem termOf_digits {s : String} (h : d.SpelledBy s) :
    Price.termOf d.digits d.fraction.length = natOfDigits d.whole := by
  have hless : natOfDigits d.fraction < 10 ^ d.fraction.length :=
    natOfDigits_lt fun c hc => h.digits c (List.mem_append_right _ hc)
  unfold Price.termOf
  rw [digits_eq, Nat.mul_add_div (Nat.pow_pos (by decide)), Nat.div_eq_of_lt hless, Nat.add_zero]

end Text.Decimal

namespace Price

open Text (Decimal natOfDigits)

variable {d d' : Decimal} {s : String}

/-! ### What the word counts -/

/-- The count of places is the number of digits modulo `2 ^ 32`. -/
theorem countedPlaces_eq_mod (d : Decimal) : countedPlaces d = d.fraction.length % 2 ^ 32 :=
  UInt32.toNat_ofNat

/-- A fraction short enough for 32 bits is counted in full. -/
theorem countedPlaces_of_lt (h : d.fraction.length < 2 ^ 32) :
    countedPlaces d = d.fraction.length := by
  rw [countedPlaces_eq_mod, Nat.mod_eq_of_lt h]

/-- The count never exceeds the number of digits. -/
theorem countedPlaces_le (d : Decimal) : countedPlaces d ≤ d.fraction.length := by
  rw [countedPlaces_eq_mod]
  exact Nat.mod_le _ _

/-! ### What a numeral is read as -/

/-- The number that a numeral without a minus is read as. -/
def readValue (d : Decimal) : ℚ := numberOf d.digits (countedPlaces d)

/-- The whole part of that number. -/
def readWhole (d : Decimal) : Nat := termOf d.digits (countedPlaces d)

/-- **The point moves** by the places that are not counted. -/
theorem readValue_eq (hsign : d.negative = false) :
    readValue d = d.value * 10 ^ (d.fraction.length - countedPlaces d) := by
  rw [← Decimal.numberOf_digits hsign]
  unfold readValue numberOf
  rw [div_mul_eq_mul_div, eq_div_iff (by positivity), div_mul_eq_mul_div,
    div_eq_iff (by positivity), mul_assoc, ← pow_add, Nat.sub_add_cancel (countedPlaces_le d)]

/-- **Below `2 ^ 32` places** a numeral is read as the number that it spells. -/
theorem readValue_of_lt (hsign : d.negative = false) (h : d.fraction.length < 2 ^ 32) :
    readValue d = d.value := by
  rw [readValue, countedPlaces_of_lt h, Decimal.numberOf_digits hsign]

/-- Where the fraction is counted in full, the whole part that is read is the one written. -/
theorem readWhole_of_lt (hs : d.SpelledBy s) (h : d.fraction.length < 2 ^ 32) :
    readWhole d = natOfDigits d.whole := by
  rw [readWhole, countedPlaces_of_lt h, Decimal.termOf_digits hs]

/-! ### Numerals with more places than the word can count -/

/-- A numeral with no minus sign has a value that is not negative. -/
theorem value_nonneg (hsign : d.negative = false) : 0 ≤ d.value := by
  rw [← Decimal.numberOf_digits hsign]
  unfold numberOf
  positivity

/-- **With so many places**, digits of 128 bits spell next to nothing. -/
theorem value_le_of_overlong (hsign : d.negative = false) (hdigits : d.digits < 2 ^ 128)
    (hlong : 2 ^ 32 ≤ d.fraction.length) : d.value ≤ 1 / 10 ^ 100 := by
  have hnumer : (d.digits : ℚ) ≤ 10 ^ 39 := by
    exact_mod_cast hdigits.le.trans (by norm_num)
  have hdenom : (10 : ℚ) ^ 139 ≤ 10 ^ d.fraction.length :=
    pow_le_pow_right₀ (by norm_num) (le_trans (by norm_num) hlong)
  rw [← Decimal.numberOf_digits hsign]
  calc numberOf d.digits d.fraction.length
      ≤ 10 ^ 39 / 10 ^ 139 := div_le_div₀ (by positivity) hnumer (by positivity) hdenom
    _ = 1 / 10 ^ 100 := by norm_num

/-! ### The same number -/

/-- Zeros behind the digits change nothing of the number. -/
theorem numberOf_zeros (value places zeros : Nat) :
    numberOf (value * 10 ^ zeros) (places + zeros) = numberOf value places := by
  unfold numberOf
  push_cast
  rw [pow_add, mul_div_mul_right _ _ (by positivity)]

/-- Numerals of the same number differ by zeros behind their digits. -/
theorem digits_eq_of_value_eq (hsign : d.negative = false) (hsign' : d'.negative = false)
    (hvalue : d.value = d'.value) {zeros : Nat}
    (hzeros : d'.fraction.length = d.fraction.length + zeros) :
    d'.digits = d.digits * 10 ^ zeros := by
  rw [← Decimal.numberOf_digits hsign, ← Decimal.numberOf_digits hsign', hzeros, numberOf, numberOf,
    pow_add, div_mul_eq_div_div_swap, div_left_inj' (by positivity),
    eq_div_iff (by positivity)] at hvalue
  exact_mod_cast hvalue.symm

/-- The same number is read as the same number, whichever numeral has more places. -/
theorem readValue_eq_of_le (hsign : d.negative = false) (hsign' : d'.negative = false)
    (hplaces : countedPlaces d ≤ maxPlaces) (hdigits' : d'.digits < 2 ^ 128)
    (hvalue : d.value = d'.value) (hle : d.fraction.length ≤ d'.fraction.length) :
    readValue d = readValue d' := by
  obtain ⟨zeros, hzeros⟩ := Nat.exists_eq_add_of_le hle
  have hdigits := digits_eq_of_value_eq hsign hsign' hvalue hzeros
  unfold readValue
  rcases Nat.eq_zero_or_pos d.digits with hzero | hpos
  · rw [hdigits, hzero, Nat.zero_mul]
    simp [numberOf]
  · -- So few zeros are left that the count cannot start again between the two lengths.
    have hfew : zeros < 39 := by
      have hpow : 10 ^ zeros ≤ d'.digits := hdigits ▸ Nat.le_mul_of_pos_left _ hpos
      refine (Nat.pow_lt_pow_iff_right (by decide : 1 < 10)).1 ?_
      exact (hpow.trans_lt hdigits').trans (by decide)
    have hcounted : countedPlaces d' = countedPlaces d + zeros := by
      rw [countedPlaces_eq_mod] at hplaces
      rw [countedPlaces_eq_mod, countedPlaces_eq_mod, hzeros]
      unfold maxPlaces at hplaces
      omega
    rw [hdigits, hcounted, numberOf_zeros]

/-- **The same number is read as the same number**, with as many places as there may be. -/
theorem readValue_eq_of_value_eq (hsign : d.negative = false) (hsign' : d'.negative = false)
    (hplaces : countedPlaces d ≤ maxPlaces) (hplaces' : countedPlaces d' ≤ maxPlaces)
    (hdigits : d.digits < 2 ^ 128) (hdigits' : d'.digits < 2 ^ 128)
    (hvalue : d.value = d'.value) : readValue d = readValue d' := by
  rcases Nat.le_total d.fraction.length d'.fraction.length with hle | hle
  · exact readValue_eq_of_le hsign hsign' hplaces hdigits' hvalue hle
  · exact (readValue_eq_of_le hsign' hsign hplaces' hdigits hvalue.symm hle).symm

/-! ### A half with its digit far from the point -/

/-- A point, so many zeros, and the digit of a half. -/
def farHalf (zeros : Nat) : String :=
  String.ofList ('0' :: '.' :: (List.replicate zeros '0' ++ ['5']))

def farHalfParts (zeros : Nat) : Decimal := ⟨false, ['0'], List.replicate zeros '0' ++ ['5']⟩

/-- The text is spelled by a zero, a point, the zeros and the five. -/
theorem spelledBy_farHalf (zeros : Nat) : (farHalfParts zeros).SpelledBy (farHalf zeros) where
  chars := ⟨[], ['.'], .none, .point _, String.toList_ofList⟩
  digits := by
    have hzeros : ∀ c ∈ List.replicate zeros '0', c.isDigit = true := by
      intro c hc
      rw [(List.mem_replicate.1 hc).2]
      rfl
    have hfive : ∀ c ∈ ['5'], c.isDigit = true := List.forall_mem_singleton.2 rfl
    have hfraction := List.forall_mem_append.2 ⟨hzeros, hfive⟩
    exact List.forall_mem_cons.2 ⟨rfl, hfraction⟩
  nonempty := List.cons_ne_nil _ _

/-- However many zeros there are, the digits are those of five. -/
theorem digits_farHalf (zeros : Nat) : (farHalfParts zeros).digits = 5 := by
  have hzeros : (farHalfParts zeros).digits
      = Text.natOfDigits (List.replicate (zeros + 1) '0' ++ ['5']) := by
    rw [List.replicate_succ]
    rfl
  rw [hzeros, Text.natOfDigits_zeros_append]
  rfl

theorem length_farHalf (zeros : Nat) : (farHalfParts zeros).fraction.length = zeros + 1 := by
  rw [farHalfParts, List.length_append, List.length_replicate, List.length_singleton]

/-- With `2 ^ 32` zeros the fraction has more digits than 32 bits count. -/
theorem overlong_farHalf {zeros : Nat} (h : 2 ^ 32 ≤ zeros) :
    2 ^ 32 ≤ (farHalfParts zeros).fraction.length := by
  rw [length_farHalf]
  exact Nat.le_succ_of_le h

/-- Behind `2 ^ 32` zeros, or a multiple of it, the digit of a half is counted as the first. -/
theorem countedPlaces_farHalf {zeros : Nat} (h : 2 ^ 32 ∣ zeros) :
    countedPlaces (farHalfParts zeros) = 1 := by
  rw [countedPlaces_eq_mod, length_farHalf]
  omega

end Price

end LedgerWire
