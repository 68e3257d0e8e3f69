/-
# Decimal numerals are exact

The digits of a number spell it, also behind zeros that fill them up to a width, and the parts of a
numeral are found again in its text.

* `natOfDigits_append` — digits in front of others count as often as the others have places.
* `natOfDigits_lt` — digits spell less than the next power of ten.
* `toList_paddedDigits`, `natOfDigits_paddedDigits` — a number with so many digits.
* `Unpadded.unique` — without zeros in front, a number has one string of digits.
* `Decimal.SpelledBy` — the grammar of numerals: a sign, digits, a point and more digits.
* `Decimal.ofText?_eq_some_iff` — the numerals are the texts that are taken apart, and into these
  parts.
-/

import Mathlib.Data.List.TakeWhile
import Mathlib.Data.Nat.Digits.Defs
import LedgerWire.Text.Decimal

namespace LedgerWire.Text

/-! ### Digits -/

/-- Digits in front weigh a power of ten for each digit behind. -/
theorem natOfDigits_append (front back : List Char) :
    natOfDigits (front ++ back) = 10 ^ back.length * natOfDigits front + natOfDigits back := by
  rw [natOfDigits, List.foldl_append]
  exact Nat.ofDigitChars_eq_ofDigitChars_zero

/-- The first digit weighs a power of ten for each digit behind it. -/
theorem natOfDigits_cons (c : Char) (digits : List Char) : natOfDigits (c :: digits)
    = 10 ^ digits.length * (c.toNat - '0'.toNat) + natOfDigits digits := by
  have hfirst : natOfDigits [c] = c.toNat - '0'.toNat := by simp [natOfDigits]
  rw [← List.singleton_append, natOfDigits_append, hfirst]

/-- Zeros alone count nothing. -/
theorem natOfDigits_zeros (zeros : Nat) : natOfDigits (List.replicate zeros '0') = 0 :=
  Nat.ofDigitChars_replicate_zero

/-- Zeros in front do not count. -/
theorem natOfDigits_zeros_append (zeros : Nat) (digits : List Char) :
    natOfDigits (List.replicate zeros '0' ++ digits) = natOfDigits digits := by
  rw [natOfDigits_append, natOfDigits_zeros, Nat.mul_zero, Nat.zero_add]

/-- Zeros behind digits move them up. -/
theorem natOfDigits_append_zeros (digits : List Char) (zeros : Nat) :
    natOfDigits (digits ++ List.replicate zeros '0') = natOfDigits digits * 10 ^ zeros := by
  rw [natOfDigits_append, natOfDigits_zeros, List.length_replicate, Nat.add_zero, Nat.mul_comm]

/-- What one digit counts. -/
theorem sub_zero_le_of_isDigit {c : Char} (h : c.isDigit = true) :
    c.toNat - '0'.toNat ≤ 9 := by
  exact Nat.sub_le_sub_right (Char.isDigit_iff_toNat.1 h).2 _

/-- Digits spell less than the next power of ten. -/
theorem natOfDigits_lt {digits : List Char} (h : ∀ c ∈ digits, c.isDigit = true) :
    natOfDigits digits < 10 ^ digits.length := by
  induction digits with
  | nil => decide
  | cons c digits ih =>
      obtain ⟨hc, hdigits⟩ := List.forall_mem_cons.1 h
      have hfront := Nat.mul_le_mul_left (10 ^ digits.length) (sub_zero_le_of_isDigit hc)
      rw [natOfDigits_cons, List.length_cons, Nat.pow_succ]
      have := ih hdigits
      omega

/-- A number comes back from its digits. -/
theorem natOfDigits_toDigits (n : Nat) : natOfDigits (Nat.toDigits 10 n) = n :=
  Nat.ofDigitChars_ten_toDigits

theorem toList_toString (n : Nat) : (toString n).toList = Nat.toDigits 10 n := by
  rw [Nat.toString_eq_ofList_toDigits, String.toList_ofList]

/-- The digits of a number are digits of the grammar. -/
theorem isDigit_of_mem_toDigits {n : Nat} {c : Char} (h : c ∈ Nat.toDigits 10 n) :
    c.isDigit = true :=
  Nat.isDigit_of_mem_toDigits (by decide) (by decide) h

/-! ### The digits of a number -/

section Digits

variable {digits others : List Char} {c d : Char}

/-- Digits that count the same are the same. -/
theorem eq_of_sub_zero_eq (hc : c.isDigit = true) (hd : d.isDigit = true)
    (h : c.toNat - '0'.toNat = d.toNat - '0'.toNat) : c = d := by
  obtain ⟨hc', -⟩ := Char.isDigit_iff_toNat.1 hc
  obtain ⟨hd', -⟩ := Char.isDigit_iff_toNat.1 hd
  refine Char.toNat_inj.1 ?_
  have hzero : '0'.toNat = 48 := rfl
  omega

/-- **As many digits that spell the same number** are the same. By induction on the digits, the
first of which is the quotient. -/
theorem eq_of_natOfDigits_eq (hdigits : ∀ c ∈ digits, c.isDigit = true)
    (hothers : ∀ c ∈ others, c.isDigit = true) (hlen : digits.length = others.length)
    (h : natOfDigits digits = natOfDigits others) : digits = others := by
  induction digits generalizing others with
  | nil => exact (List.eq_nil_of_length_eq_zero hlen.symm).symm
  | cons c digits ih =>
      cases others with
      | nil => cases hlen
      | cons d others =>
          obtain ⟨hc, hdigits⟩ := List.forall_mem_cons.1 hdigits
          obtain ⟨hd, hothers⟩ := List.forall_mem_cons.1 hothers
          have hlen : digits.length = others.length := by simpa using hlen
          have hless := natOfDigits_lt hdigits
          have hless' := natOfDigits_lt hothers
          rw [natOfDigits_cons, natOfDigits_cons, ← hlen] at h
          rw [← hlen] at hless'
          have hfirst : c.toNat - '0'.toNat = d.toNat - '0'.toNat := by
            have hquotient := congrArg (· / 10 ^ digits.length) h
            simpa only [Nat.mul_add_div (Nat.pow_pos (show 0 < 10 by decide)),
              Nat.div_eq_of_lt hless, Nat.div_eq_of_lt hless', Nat.add_zero] using hquotient
          rw [hfirst] at h
          rw [eq_of_sub_zero_eq hc hd hfirst, ih hdigits hothers hlen (Nat.add_left_cancel h)]

/-- The digits of an integer as they are written: one at least, and no zero in front of others. -/
structure Unpadded (digits : List Char) : Prop where
  nonempty : digits ≠ []
  isDigit : ∀ c ∈ digits, c.isDigit = true
  head : 1 < digits.length → digits.head? ≠ some '0'

/-- Digits without zeros in front spell a number of their length. -/
theorem Unpadded.pow_le (h : Unpadded digits) (hlen : 1 < digits.length) :
    10 ^ (digits.length - 1) ≤ natOfDigits digits := by
  have hhead := h.head hlen
  cases digits with
  | nil => exact absurd rfl h.nonempty
  | cons c digits =>
      have hone : 1 ≤ c.toNat - '0'.toNat := by
        rw [Nat.one_le_iff_ne_zero]
        intro hzero
        refine hhead (congrArg some ?_)
        exact eq_of_sub_zero_eq (h.isDigit c List.mem_cons_self) rfl hzero
      rw [natOfDigits_cons, List.length_cons, Nat.add_sub_cancel]
      exact (Nat.le_mul_of_pos_right _ hone).trans (Nat.le_add_right _ _)

/-- No digits of the same number are fewer than those without zeros in front. -/
theorem Unpadded.length_le (h : Unpadded digits) (hothers : ∀ c ∈ others, c.isDigit = true)
    (hnonempty : others ≠ []) (hle : natOfDigits digits ≤ natOfDigits others) :
    digits.length ≤ others.length := by
  by_contra hlong
  have hone := List.length_pos_iff.2 hnonempty
  have hlarge := h.pow_le (by omega)
  have hpow : 10 ^ others.length ≤ 10 ^ (digits.length - 1) :=
    Nat.pow_le_pow_right (by decide) (by omega)
  have hless := natOfDigits_lt hothers
  omega

/-- **A number has one string of digits** without zeros in front. -/
theorem Unpadded.unique (h : Unpadded digits) (h' : Unpadded others)
    (heq : natOfDigits digits = natOfDigits others) : digits = others :=
  eq_of_natOfDigits_eq h.isDigit h'.isDigit
    (Nat.le_antisymm (h.length_le h'.isDigit h'.nonempty heq.le)
      (h'.length_le h.isDigit h.nonempty heq.ge)) heq

/-- A number is written with no zero in front, unless it is zero. -/
theorem unpadded_toDigits (n : Nat) : Unpadded (Nat.toDigits 10 n) where
  nonempty := Nat.toDigits_ne_nil
  isDigit _ := isDigit_of_mem_toDigits
  head := by
    intro hlen hhead
    obtain ⟨rest, hrest⟩ := List.head?_eq_some_iff.1 hhead
    have hdigits : ∀ c ∈ rest, c.isDigit = true := fun c hc =>
      isDigit_of_mem_toDigits (hrest ▸ List.mem_cons_of_mem _ hc)
    have hn : natOfDigits rest = n := by
      rw [← natOfDigits_toDigits n, hrest, natOfDigits_cons, Nat.sub_self, Nat.mul_zero,
        Nat.zero_add]
    rw [hrest, List.length_cons] at hlen
    have hshort : (Nat.toDigits 10 n).length ≤ rest.length := by
      rw [Nat.length_toDigits_le_iff (by decide) (by omega), ← hn]
      exact natOfDigits_lt hdigits
    rw [hrest, List.length_cons] at hshort
    omega

end Digits

/-! ### Digits of one width -/

section Padded

variable {width n : Nat}

/-- Padding puts zeros in front of the digits. -/
theorem toList_paddedDigits (width n : Nat) :
    (paddedDigits width n).toList
      = List.replicate (width - (Nat.toDigits 10 n).length) '0' ++ Nat.toDigits 10 n := by
  rw [paddedDigits, String.toList_append, String.toList_ofList, toList_toString,
    ← String.length_toList, toList_toString]

/-- A number that fits the width is padded to it exactly. -/
theorem length_paddedDigits (hwidth : 0 < width) (h : n < 10 ^ width) :
    (paddedDigits width n).toList.length = width := by
  have hlen := Nat.toDigits_length 10 n width hwidth h
  rw [toList_paddedDigits, List.length_append, List.length_replicate]
  omega

/-- **The zeros in front do not count.** -/
theorem natOfDigits_paddedDigits (width n : Nat) :
    natOfDigits (paddedDigits width n).toList = n := by
  rw [toList_paddedDigits, natOfDigits_zeros_append, natOfDigits_toDigits]

/-- Padding adds digits only. -/
theorem isDigit_of_mem_paddedDigits {c : Char} (h : c ∈ (paddedDigits width n).toList) :
    c.isDigit = true := by
  rw [toList_paddedDigits] at h
  rcases List.mem_append.1 h with hzero | hdigit
  · rw [(List.mem_replicate.1 hzero).2]
    rfl
  · exact isDigit_of_mem_toDigits hdigit

end Padded

/-! ### Numerals -/

/-- The signs, and whether the numeral behind them is negative. -/
inductive IsSign : Bool → List Char → Prop
  | none : IsSign false []
  | plus : IsSign false ['+']
  | minus : IsSign true ['-']

/-- The point before these digits; it may be left out where there are none. -/
inductive IsPoint : List Char → List Char → Prop
  | point (fraction : List Char) : IsPoint fraction ['.']
  | none : IsPoint [] []

/-- The text is a numeral with these parts: a sign, digits, and a point with more digits. -/
structure Decimal.SpelledBy (d : Decimal) (s : String) : Prop where
  chars : ∃ sign point, IsSign d.negative sign ∧ IsPoint d.fraction point
    ∧ s.toList = sign ++ (d.whole ++ (point ++ d.fraction))
  digits : ∀ c ∈ d.whole ++ d.fraction, c.isDigit = true
  nonempty : d.whole ++ d.fraction ≠ []

/-- A sign that is a minus or is left out. -/
def signChars (negative : Bool) : List Char := if negative then ['-'] else []

theorem isSign_signChars (negative : Bool) : IsSign negative (signChars negative) := by
  cases negative with
  | true => exact .minus
  | false => exact .none

/-- A digit is neither a sign nor the point, so a grammar of both is read one way. -/
theorem ne_of_isDigit {c : Char} (h : c.isDigit = true) : c ≠ '-' ∧ c ≠ '+' ∧ c ≠ '.' := by
  refine ⟨?_, ?_, ?_⟩
  all_goals
    rintro rfl
    cases h

/-- What is split off in front is a sign. -/
theorem sign_of_splitSign {negative : Bool} {cs rest : List Char}
    (h : splitSign cs = (negative, rest)) : ∃ sign, IsSign negative sign ∧ cs = sign ++ rest := by
  unfold splitSign at h
  split at h
  · cases h
    exact ⟨_, .minus, rfl⟩
  · cases h
    exact ⟨_, .plus, rfl⟩
  · cases h
    exact ⟨_, .none, rfl⟩

/-- A sign is split off where no other stands behind it. -/
theorem splitSign_append {negative : Bool} {sign rest : List Char} (hsign : IsSign negative sign)
    (hrest : ∀ c ∈ rest.head?, c ≠ '-' ∧ c ≠ '+') :
    splitSign (sign ++ rest) = (negative, rest) := by
  cases hsign with
  | minus => rfl
  | plus => rfl
  | none =>
      rw [List.nil_append]
      unfold splitSign
      split
      · exact absurd rfl (hrest '-' rfl).1
      · exact absurd rfl (hrest '+' rfl).2
      · rfl

/-- What stands from the first point on. -/
theorem exists_isPoint (cs : List Char) :
    ∃ point, IsPoint ((cs.dropWhile (· ≠ '.')).drop 1) point
      ∧ cs.dropWhile (· ≠ '.') = point ++ (cs.dropWhile (· ≠ '.')).drop 1 := by
  have hhead := List.head?_dropWhile_not (· ≠ '.') cs
  cases hrest : cs.dropWhile (· ≠ '.') with
  | nil => exact ⟨[], .none, rfl⟩
  | cons c rest =>
      rw [hrest] at hhead
      obtain rfl : c = '.' := by simpa using hhead
      exact ⟨['.'], .point rest, rfl⟩

/-- The digits before a point, and those behind it. -/
theorem parts_of_isPoint {whole point fraction : List Char} (hpoint : IsPoint fraction point)
    (hwhole : ∀ c ∈ whole, c.isDigit = true) :
    (whole ++ (point ++ fraction)).takeWhile (· ≠ '.') = whole
      ∧ ((whole ++ (point ++ fraction)).dropWhile (· ≠ '.')).drop 1 = fraction := by
  have hplain : ∀ c ∈ whole, decide (c ≠ '.') = true := by
    intro c hc
    exact decide_eq_true (ne_of_isDigit (hwhole c hc)).2.2
  rw [List.takeWhile_append_of_pos hplain, List.dropWhile_append_of_pos hplain]
  cases hpoint with
  | point fraction => simp
  | none => simp

namespace Decimal

variable {s : String} {d : Decimal}

/-- Behind its sign a numeral starts with a digit or with its point. -/
theorem head?_parts {point : List Char} (hpoint : IsPoint d.fraction point)
    (hdigits : ∀ c ∈ d.whole ++ d.fraction, c.isDigit = true)
    (hnonempty : d.whole ++ d.fraction ≠ []) :
    ∀ c ∈ (d.whole ++ (point ++ d.fraction)).head?, c ≠ '-' ∧ c ≠ '+' := by
  intro c hc
  cases hwhole : d.whole with
  | cons first rest =>
      rw [hwhole] at hc hdigits
      obtain rfl : first = c := by simpa using hc
      have hfirst := ne_of_isDigit (hdigits first (by simp))
      exact ⟨hfirst.1, hfirst.2.1⟩
  | nil =>
      rw [hwhole] at hc hnonempty
      generalize d.fraction = fraction at hc hpoint hnonempty
      cases hpoint with
      | point fraction =>
          obtain rfl : '.' = c := by simpa using hc
          decide
      | none => exact absurd rfl hnonempty

/-- A numeral starts with a minus exactly if it is negative. -/
theorem SpelledBy.head?_eq_minus_iff (h : d.SpelledBy s) :
    s.toList.head? = some '-' ↔ d.negative = true := by
  obtain ⟨⟨sign, point, hsign, hpoint, hs⟩, hdigits, hnonempty⟩ := h
  have hparts := head?_parts hpoint hdigits hnonempty
  rw [hs]
  generalize d.whole ++ (point ++ d.fraction) = rest at hparts
  generalize d.negative = negative at hsign
  cases hsign with
  | minus => simp
  | plus => simp
  | none =>
      refine iff_of_false ?_ Bool.false_ne_true
      intro hhead
      exact (hparts '-' hhead).1 rfl

/-- **A text has the parts of a numeral exactly if they spell it.** -/
theorem ofText?_eq_some_iff : ofText? s = some d ↔ d.SpelledBy s := by
  constructor
  · intro h
    unfold ofText? at h
    rcases hsplit : splitSign s.toList with ⟨negative, cs⟩
    obtain ⟨sign, hsign, hs⟩ := sign_of_splitSign hsplit
    obtain ⟨point, hpoint, hrest⟩ := exists_isPoint cs
    rw [hsplit] at h
    simp only [Option.ite_none_left_eq_some, Bool.or_eq_true, Bool.and_eq_true,
      List.isEmpty_iff, Bool.not_eq_true', Option.some.injEq, not_or, not_and,
      Bool.not_eq_false, List.all_eq_true] at h
    obtain ⟨⟨hnonempty, hdigits⟩, rfl⟩ := h
    refine ⟨⟨sign, point, hsign, hpoint, ?_⟩, hdigits, ?_⟩
    · rw [hs, ← hrest, List.takeWhile_append_dropWhile]
    · intro hnil
      obtain ⟨hwhole, hfraction⟩ := List.append_eq_nil_iff.1 hnil
      exact hnonempty hwhole hfraction
  · rintro ⟨⟨sign, point, hsign, hpoint, hs⟩, hdigits, hnonempty⟩
    have hhead := head?_parts hpoint hdigits hnonempty
    obtain ⟨hwhole, hfraction⟩ :=
      parts_of_isPoint hpoint fun c hc => hdigits c (List.mem_append_left _ hc)
    have hsome : (d.whole.isEmpty && d.fraction.isEmpty) = false := by
      rw [Bool.and_eq_false_iff, List.isEmpty_eq_false_iff, List.isEmpty_eq_false_iff]
      by_contra hboth
      push Not at hboth
      exact hnonempty (List.append_eq_nil_iff.2 hboth)
    unfold ofText?
    rw [hs, splitSign_append hsign hhead]
    simp only [hwhole, hfraction, hsome, List.all_eq_true.2 hdigits]
    rfl

/-- A text is a numeral in one way only. -/
theorem SpelledBy.unique {d' : Decimal} (h : d.SpelledBy s) (h' : d'.SpelledBy s) : d = d' :=
  Option.some.inj ((ofText?_eq_some_iff.2 h).symm.trans (ofText?_eq_some_iff.2 h'))

/-- No parts are found in a text that is no numeral. -/
theorem ofText?_eq_none (h : ∀ d : Decimal, ¬d.SpelledBy s) : ofText? s = none := by
  rw [Option.eq_none_iff_forall_not_mem]
  intro d hd
  exact h d (ofText?_eq_some_iff.1 hd)

/-- The parts of a numeral with whole digits and a point are found in its text. -/
theorem ofText?_numeral {negative : Bool} {whole fraction : List Char} (hne : whole ≠ [])
    (hwhole : ∀ c ∈ whole, c.isDigit = true) (hfraction : ∀ c ∈ fraction, c.isDigit = true)
    (hs : s.toList = signChars negative ++ (whole ++ '.' :: fraction)) :
    ofText? s = some ⟨negative, whole, fraction⟩ := by
  refine ofText?_eq_some_iff.2 ⟨⟨_, _, isSign_signChars negative, .point fraction, hs⟩, ?_, ?_⟩
  · rw [List.forall_mem_append]
    exact ⟨hwhole, hfraction⟩
  · intro hnil
    exact hne (List.append_eq_nil_iff.1 hnil).1

end Decimal

end LedgerWire.Text
