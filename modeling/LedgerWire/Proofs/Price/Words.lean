/-
# The expansion in words of 128 bits

An expansion holds its numbers in words of 128 bits. This module goes through it once more and
checks every step that a word could spoil: a sum, a product or a power that does not fit comes to
nothing, and so does a division by zero. The reciprocal is found as it is on paper, digit by digit,
and an expansion that is not over after the rounds it is given comes to nothing as well. None of
this ever happens, for any text: the parts of the units stay below `10 ^ 30`, the terms and
convergents below `2 ^ 31`, and no more than 47 rounds are needed.

* `Words.fit`, `Words.quotient?`, `Words.remainder?` — the checked operations.
* `Words.longDivision_eq` — a quotient with so many places, and its rest.
* `Words.round_eq`, `Words.expand_eq` — a round and a whole expansion never spoil a word.
* `Words.worth?_eq` — the digits of a text are the only number that may not fit.
* `Words.ofDecimal_eq` — the price of every text.
-/

import LedgerWire.Proofs.Price.Acceptance

namespace LedgerWire.Price.Words

open Text (Decimal natOfDigits)

/-! ### Checked operations -/

/-- A number, if it is one of 128 bits. -/
def fit (n : Nat) : Option Nat := if n < 2 ^ 128 then some n else none

def quotient? (n m : Nat) : Option Nat := if m = 0 then none else some (n / m)

/-- The rest of a division, if there is one. -/
def remainder? (n m : Nat) : Option Nat := if m = 0 then none else some (n % m)

section

variable {n m : Nat}

/-- What is below `2 ^ 128` is kept by the checked arithmetic. -/
theorem fit_of_lt (h : n < 2 ^ 128) : fit n = some n := if_pos h

/-- What is not below `2 ^ 128` is an overflow. -/
theorem fit_of_le (h : 2 ^ 128 ≤ n) : fit n = none := if_neg (Nat.not_lt.2 h)

theorem quotient?_of_pos (h : 0 < m) : quotient? n m = some (n / m) := if_neg h.ne'

theorem remainder?_of_pos (h : 0 < m) : remainder? n m = some (n % m) := if_neg h.ne'

end

/-! ### Reciprocals -/

/-- So many more places of a quotient, and the rest behind them. -/
def longDivision (part : Nat) : (places rest quotient : Nat) → Option (Nat × Nat)
  | 0, rest, quotient => some (quotient, rest)
  | places + 1, rest, quotient => do
      let scaled ← fit (rest * 10)
      let digit ← quotient? scaled part
      let shifted ← fit (quotient * 10)
      let longer ← fit (shifted + digit)
      let left ← remainder? scaled part
      longDivision part places left longer

/-- `unit / part` to so many places behind the whole part, a half rounded upward. -/
def roundedQuotient (whole unit part places : Nat) : Option Nat := do
  let rest ← remainder? unit part
  let (quotient, left) ← longDivision part places rest whole
  let doubled ← fit (left * 2)
  if part ≤ doubled then fit (quotient + 1) else some quotient

/-- A quotient with more places is the quotient, and these places of its rest. -/
theorem mul_div_eq {n m : Nat} (hm : 0 < m) (k : Nat) :
    n * k / m = n / m * k + n % m * k / m := by
  have hsplit : n * k = m * (n / m * k) + n % m * k := by
    rw [← Nat.mul_assoc, ← Nat.add_mul, Nat.div_add_mod]
  rw [hsplit, Nat.mul_add_div hm]

section

variable {part : Nat}

/-- **Long division** finds the places of the quotient, as long as they fit. By induction on the
places: each of them leaves a rest below the divisor. -/
theorem longDivision_eq {places rest quotient : Nat} (hpart : part * 10 ≤ 2 ^ 128)
    (hrest : rest < part) (hquotient : (quotient + 1) * 10 ^ places ≤ 2 ^ 128) :
    longDivision part places rest quotient
      = some (quotient * 10 ^ places + rest * 10 ^ places / part, rest * 10 ^ places % part) := by
  induction places generalizing rest quotient with
  | zero =>
      rw [Nat.pow_zero, Nat.mul_one, Nat.mul_one, Nat.div_eq_of_lt hrest, Nat.mod_eq_of_lt hrest]
      rfl
  | succ places ih =>
      have hpos : 0 < part := Nat.zero_lt_of_lt hrest
      -- One place is one digit: the remainder was less than the divisor.
      have hdigit : rest * 10 / part < 10 := by
        rw [Nat.div_lt_iff_lt_mul hpos]
        omega
      have hlonger : (quotient * 10 + rest * 10 / part + 1) * 10 ^ places ≤ 2 ^ 128 := by
        refine le_trans ?_ hquotient
        rw [Nat.pow_succ', ← Nat.mul_assoc]
        exact Nat.mul_le_mul_right _ (by omega)
      have hfits : quotient * 10 + rest * 10 / part < 2 ^ 128 :=
        (Nat.le_mul_of_pos_right _ (Nat.pow_pos (by decide))).trans hlonger
      have hscaled : rest * 10 < 2 ^ 128 := by omega
      have hshifted : quotient * 10 < 2 ^ 128 := (Nat.le_add_right _ _).trans_lt hfits
      simp only [longDivision, fit_of_lt hscaled, quotient?_of_pos hpos, remainder?_of_pos hpos,
        fit_of_lt hshifted, fit_of_lt hfits, Option.bind_eq_bind, Option.bind_some]
      rw [ih (Nat.mod_lt _ hpos) hlonger, Nat.pow_succ', ← Nat.mul_assoc, ← Nat.mul_assoc,
        mul_div_eq (n := rest * 10) hpos, Nat.mod_mul_mod, Nat.add_mul, Nat.add_assoc]

/-- **A rounded quotient fits** if the next larger whole part does, with as many places. -/
theorem roundedQuotient_eq {unit places : Nat} (hpos : 0 < part) (hpart : part * 10 ≤ 2 ^ 128)
    (hlarge : (unit / part + 1) * 10 ^ places < 2 ^ 128) :
    roundedQuotient (unit / part) unit part places
      = some (Price.roundedQuotient unit part places) := by
  have hless : unit * 10 ^ places % part < part := Nat.mod_lt _ hpos
  have hdoubled : unit * 10 ^ places % part * 2 < 2 ^ 128 := by omega
  have hfits : unit * 10 ^ places / part + 1 < 2 ^ 128 := by
    refine lt_of_le_of_lt ?_ hlarge
    rw [mul_div_eq hpos, Nat.add_mul, Nat.add_assoc, Nat.one_mul]
    refine Nat.add_le_add_left ?_ _
    rw [Nat.add_one_le_iff, Nat.div_lt_iff_lt_mul hpos, Nat.mul_comm]
    exact Nat.mul_lt_mul_of_pos_left (Nat.mod_lt _ hpos) (Nat.pow_pos (by decide))
  have hdivision := longDivision_eq hpart (Nat.mod_lt unit hpos) hlarge.le
  rw [← mul_div_eq hpos, Nat.mod_mul_mod] at hdivision
  simp only [roundedQuotient, remainder?_of_pos hpos, hdivision, fit_of_lt hdoubled,
    fit_of_lt hfits, Option.bind_eq_bind, Option.bind_some]
  rw [roundedQuotient_def, Nat.mul_comm _ 2, apply_ite some]

end

/-! ### Rounds -/

/-- One round of the expansion of `value / 10 ^ places`. -/
def round (value places : Nat) (c : Convergents) : Option Round := do
  let unit ← fit (10 ^ places)
  let term ← quotient? value unit
  let part ← remainder? value unit
  if maxTerm < term then some (.last c)
  else
    let h ← fit (term * c.h)
    let h ← fit (h + c.h')
    let k ← fit (term * c.k)
    let k ← fit (k + c.k')
    if maxTerm < h ∨ maxTerm < k then some (.last c)
    else if part = 0 then some (.last ⟨h, k, c.h, c.k⟩)
    else
      let whole ← quotient? unit part
      if maxTerm < whole then some (.last ⟨h, k, c.h, c.k⟩)
      else
        let value ← roundedQuotient whole unit part reciprocalPlaces
        some (.next value ⟨h, k, c.h, c.k⟩)

/-- Expands `value / 10 ^ places`, if that does not take more rounds than these. -/
def expand : (rounds value places : Nat) → Convergents → Option Convergents
  | 0, _, _, _ => none
  | rounds + 1, value, places, c => do
      match ← round value places c with
      | .last last => some last
      | .next value next => expand rounds value reciprocalPlaces next

/-- The places and the convergents of a round are small enough for words. -/
structure Small (places : Nat) (c : Convergents) : Prop where
  places : places ≤ maxPlaces
  fits : c.Fits
  fits' : c.h' ≤ maxTerm ∧ c.k' ≤ maxTerm

section

variable {value places rounds limit : Nat} {c c' : Convergents}

/-- The terms of a convergent fit before it is known whether they are too large. -/
theorem fit_term {term m n : Nat} (hterm : term ≤ maxTerm) (hm : m ≤ maxTerm) (hn : n ≤ maxTerm) :
    fit (term * m) = some (term * m) ∧ fit (term * m + n) = some (term * m + n) := by
  have hbound : maxTerm * maxTerm + maxTerm < 2 ^ 128 := by decide
  have hmul : term * m ≤ maxTerm * maxTerm := Nat.mul_le_mul hterm hm
  exact ⟨fit_of_lt (by omega), fit_of_lt (by omega)⟩

/-- **No round spoils a word.** -/
theorem round_eq (h : Small places c) :
    round value places c = some (Price.round value places c) := by
  have hpos : 0 < 10 ^ places := Nat.pow_pos (by decide)
  have hunit : 10 ^ places * 10 ≤ 2 ^ 128 :=
    (Nat.mul_le_mul_right 10 (Nat.pow_le_pow_right (by decide) h.places)).trans
      (by decide : 10 ^ maxPlaces * 10 ≤ 2 ^ 128)
  have hfit : fit (10 ^ places) = some (10 ^ places) := fit_of_lt (by omega)
  have hterm : quotient? value (10 ^ places) = some (termOf value places) := quotient?_of_pos hpos
  have hpart : remainder? value (10 ^ places) = some (partOf value places) :=
    remainder?_of_pos hpos
  have hless := partOf_lt value places
  simp only [round, hfit, hterm, hpart, Option.bind_eq_bind, Option.bind_some]
  unfold Price.round
  by_cases hlarge : maxTerm < termOf value places
  · have hstops : ¬Takes value places c := fun htakes => Nat.not_le.2 hlarge htakes.1
    rw [if_pos hlarge, if_neg hstops]
  · obtain ⟨hh, hh'⟩ := fit_term (Nat.not_lt.1 hlarge) h.fits.1 h.fits'.1
    obtain ⟨hk, hk'⟩ := fit_term (Nat.not_lt.1 hlarge) h.fits.2 h.fits'.2
    rw [if_neg hlarge]
    simp only [hh, hh', hk, hk', Option.bind_some]
    by_cases hnext : maxTerm < termOf value places * c.h + c.h'
        ∨ maxTerm < termOf value places * c.k + c.k'
    · have hstops : ¬Takes value places c := by
        rintro ⟨-, hh, hk⟩
        rcases hnext with hnext | hnext
        · exact Nat.not_le.2 hnext hh
        · exact Nat.not_le.2 hnext hk
      rw [if_pos hnext, if_neg hstops]
    · obtain ⟨hh, hk⟩ := not_or.1 hnext
      have htakes : Takes value places c :=
        ⟨Nat.not_lt.1 hlarge, Nat.not_lt.1 hh, Nat.not_lt.1 hk⟩
      rw [if_neg hnext, if_pos htakes]
      by_cases hzero : partOf value places = 0
      · rw [if_pos hzero, if_pos (.inl hzero)]
        rfl
      · have hpart : 0 < partOf value places := Nat.pos_of_ne_zero hzero
        rw [if_neg hzero, quotient?_of_pos hpart, Option.bind_some]
        by_cases hwhole : maxTerm < 10 ^ places / partOf value places
        · rw [if_pos hwhole, if_pos (.inr hwhole)]
          rfl
        · have hends : ¬Exhausts value places := not_or.2 ⟨hzero, hwhole⟩
          have hbound : (10 ^ places / partOf value places + 1) * 10 ^ reciprocalPlaces < 2 ^ 128 :=
            (Nat.mul_le_mul_right _ (Nat.succ_le_succ (Nat.not_lt.1 hwhole))).trans_lt
              (by decide : (maxTerm + 1) * 10 ^ reciprocalPlaces < 2 ^ 128)
          rw [if_neg hwhole, if_neg hends, roundedQuotient_eq hpart (by omega) hbound,
            Option.bind_some]
          rfl

/-- **No expansion spoils a word**, and none needs more rounds than it has. -/
theorem expand_eq (hexpands : Expands rounds value places c c') (h : Small places c)
    (hlimit : rounds ≤ limit) : expand limit value places c = some c' := by
  induction hexpands generalizing limit with
  | last hround =>
      obtain ⟨limit, rfl⟩ := Nat.exists_eq_add_of_le' hlimit
      rw [expand, round_eq h, hround]
      rfl
  | @next rounds value places value' c next last hround _ ih =>
      obtain ⟨limit, rfl⟩ := Nat.exists_eq_add_of_le' ((Nat.le_add_left 1 rounds).trans hlimit)
      obtain ⟨htakes, -, rfl, -⟩ := round_eq_next_iff.1 hround
      have hsmall : Small reciprocalPlaces (c.next (termOf value places)) :=
        ⟨by decide, htakes.2, h.fits⟩
      rw [expand, round_eq h, hround]
      exact ih hsmall (Nat.le_of_add_le_add_right hlimit)

end

/-! ### The price of a text -/

/-- A number with one more digit. -/
def push (n : Nat) (c : Char) : Option Nat := do
  let shifted ← fit (n * 10)
  fit (shifted + (c.toNat - '0'.toNat))

/-- The number that decimal digits spell, if it and every number on the way to it fit. -/
def worth? (digits : List Char) : Option Nat := digits.foldlM push 0

/-- The price of a decimal text, if its expansion does not take more rounds than these. -/
def ofDecimal (rounds : Nat) (s : String) : Option (Except WireError Price) :=
  match Decimal.ofText? s with
  | none => some (.error (.validation "price" (.notDecimal s)))
  | some d =>
      if d.negative then some (.error (.validation "price" (.negativeDecimal s)))
      else if maxPlaces < countedPlaces d then some (.error (.precision (.priceDigits s)))
      else match worth? (d.whole ++ d.fraction) with
        | none => some (.error (.precision (.priceDigits s)))
        | some value => do
            let c ← expand rounds value (countedPlaces d) .start
            if c.k = 0 then some (.error (.precision (.priceRange s))) else some (.ok c.price)

/-- **The digits fit** exactly if the number that they spell does. -/
theorem worth?_eq (digits : List Char) : worth? digits = fit (natOfDigits digits) :=
  Text.foldlM_pushBelow_zero digits (by decide)

/-- **The price of every text**: no number but that of the digits can fail to fit, no division is by
zero, and 47 rounds are always enough. -/
theorem ofDecimal_eq (s : String) {rounds : Nat} (hrounds : 47 ≤ rounds) :
    ofDecimal rounds s = some (Price.ofDecimal s) := by
  unfold ofDecimal Price.ofDecimal
  cases Decimal.ofText? s with
  | none => rfl
  | some d =>
      simp only [worth?_eq]
      by_cases hsign : d.negative = true
      · rw [if_pos hsign, if_pos hsign]
      · rw [if_neg hsign, if_neg hsign]
        by_cases hplaces : maxPlaces < countedPlaces d
        · rw [if_pos hplaces, if_pos (.inl hplaces)]
        · rw [if_neg hplaces]
          by_cases hdigits : d.digits < 2 ^ 128
          · obtain ⟨needed, hneeded, hexpands⟩ := expands_convergents d.digits (countedPlaces d)
            have hsmall : Small (countedPlaces d) .start :=
              ⟨Nat.not_lt.1 hplaces, by decide, by decide⟩
            have hexpand := expand_eq hexpands hsmall (hneeded.trans hrounds)
            have hkept : ¬(maxPlaces < countedPlaces d ∨ Nat.pow 2 128 ≤ d.digits) :=
              not_or.2 ⟨hplaces, Nat.not_le.2 hdigits⟩
            have hfit : fit (natOfDigits (d.whole ++ d.fraction)) = some d.digits :=
              fit_of_lt hdigits
            rw [if_neg hkept, hfit, apply_ite some]
            simp only [hexpand, Option.bind_eq_bind, Option.bind_some]
            rfl
          · have hlarge := Nat.not_lt.1 hdigits
            have hfit : fit (natOfDigits (d.whole ++ d.fraction)) = none := fit_of_le hlarge
            rw [if_pos (.inr hlarge), hfit]

/-- The golden ratio needs them all. -/
example : ofDecimal 46 "0.618033988749894848204586834366" = none := by decide +kernel

end LedgerWire.Price.Words
