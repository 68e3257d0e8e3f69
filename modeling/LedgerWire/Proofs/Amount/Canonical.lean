/-
# The canonical text of an amount

Many texts spell one amount, and one of them is canonical: a minus for an amount below zero, the
whole digits without zeros in front, the point, and seven digits behind it. It is the text that is
written, it is read as the amount that it was written for, and so no two amounts share theirs.

* `Canonical` — the form, for a count of stroops.
* `Canonical.unique` — no other canonical text is read as the same amount.
* `canonical_textOfStroops` — what is written is canonical.
* `text_canonical` — all of it, for every amount.
-/

import LedgerWire.Proofs.Amount.Exactness
import LedgerWire.Proofs.Texts

namespace LedgerWire.Amount

open Text (Decimal Unpadded natOfDigits)

/-- The text has the canonical form of a count of stroops: a minus exactly if that is below zero,
whole digits without zeros in front of others, a point, and seven digits. -/
def Canonical (n : Int) (s : String) : Prop :=
  ∃ whole fraction, s.toList = Text.signChars (decide (n < 0)) ++ (whole ++ '.' :: fraction)
    ∧ Unpadded whole ∧ fraction.length = 7 ∧ ∀ c ∈ fraction, c.isDigit = true

variable {a b : Amount} {s t : String} {whole fraction : List Char}

/-! ### Reading -/

/-- The digits of a text with a point and seven digits count the stroops without their sign. -/
theorem natAbs_stroops_of_ofText {negative : Bool} (hwhole : Unpadded whole)
    (hfraction : ∀ c ∈ fraction, c.isDigit = true) (hlen : fraction.length = 7)
    (hs : s.toList = Text.signChars negative ++ (whole ++ '.' :: fraction))
    (hok : ofText s = .ok a) :
    natOfDigits whole = a.stroops.toInt.natAbs / 10 ^ 7
      ∧ natOfDigits fraction = a.stroops.toInt.natAbs % 10 ^ 7 := by
  have hparts : Decimal.SpelledBy ⟨negative, whole, fraction⟩ s :=
    Decimal.ofText?_eq_some_iff.1
      (Decimal.ofText?_numeral hwhole.nonempty hwhole.isDigit hfraction hs)
  have hless : natOfDigits fraction < 10 ^ 7 := hlen ▸ Text.natOfDigits_lt hfraction
  have hstroops := ((ofText_eq_ok_iff hparts).1 hok).2
  -- With seven digits after the point there is nothing to fill up: the digits are the count.
  have habs : a.stroops.toInt.natAbs = 10 ^ 7 * natOfDigits whole + natOfDigits fraction := by
    have hdigits : Decimal.digits ⟨negative, whole, fraction⟩
        = 10 ^ 7 * natOfDigits whole + natOfDigits fraction := hlen ▸ Decimal.digits_eq _
    rw [hstroops, ← hdigits]
    exact Decimal.natAbs_scaled hlen
  rw [habs]
  constructor
  · rw [Nat.mul_add_div (by decide), Nat.div_eq_of_lt hless, Nat.add_zero]
  · rw [Nat.mul_add_mod, Nat.mod_eq_of_lt hless]

/-- **One canonical text is read as an amount**: the sign is that of the amount, and its stroops
have one string of whole digits and one of seven. -/
theorem Canonical.unique (hs : Canonical a.stroops.toInt s) (ht : Canonical a.stroops.toInt t)
    (hok : ofText s = .ok a) (hok' : ofText t = .ok a) : s = t := by
  obtain ⟨whole, fraction, hchars, hwhole, hlen, hfraction⟩ := hs
  obtain ⟨whole', fraction', hchars', hwhole', hlen', hfraction'⟩ := ht
  obtain ⟨hquotient, hrest⟩ := natAbs_stroops_of_ofText hwhole hfraction hlen hchars hok
  obtain ⟨hquotient', hrest'⟩ := natAbs_stroops_of_ofText hwhole' hfraction' hlen' hchars' hok'
  have hwholes : whole = whole' := hwhole.unique hwhole' (hquotient.trans hquotient'.symm)
  have hfractions : fraction = fraction' :=
    Text.eq_of_natOfDigits_eq hfraction hfraction' (hlen.trans hlen'.symm)
      (hrest.trans hrest'.symm)
  apply String.toList_injective
  rw [hchars, hchars', hwholes, hfractions]

/-! ### Writing -/

/-- **What is written is canonical.** -/
theorem canonical_textOfStroops (n : Int) : Canonical n (textOfStroops n) := by
  have hunit : n.natAbs % 10 ^ decimals < 10 ^ decimals := Nat.mod_lt _ (by decide)
  exact ⟨_, _, toList_textOfStroops n, Text.unpadded_toDigits _,
    Text.length_paddedDigits (by decide) hunit, fun _ => Text.isDigit_of_mem_paddedDigits⟩

/-- The text of an amount names it: two amounts with one text are one amount. -/
theorem text_injective (h : a.text = b.text) : a = b := by
  have hok := ofText_text a
  rw [h, ofText_text b] at hok
  exact (Except.ok.inj hok).symm

/-- **The text of an amount is its canonical text.** It has the canonical form and is read as the
amount; of all texts that are read as the amount no other has that form; and the text of another
amount is another one. -/
theorem text_canonical (a : Amount) :
    Canonical a.stroops.toInt a.text ∧ ofText a.text = .ok a
      ∧ (∀ s, ofText s = .ok a → (Canonical a.stroops.toInt s ↔ s = a.text))
      ∧ ∀ b : Amount, b ≠ a → b.text ≠ a.text := by
  have hcanonical : Canonical a.stroops.toInt a.text := canonical_textOfStroops _
  refine ⟨hcanonical, ofText_text a, fun s hok => ⟨fun hs => ?_, ?_⟩, fun b hne heq => ?_⟩
  · exact hs.unique hcanonical hok (ofText_text a)
  · rintro rfl
    exact hcanonical
  · exact hne (text_injective heq)

/-- Half a unit below zero has its sign and its zero before the point. -/
theorem text_canonical_half :
    Canonical (-5000000) "-0.5000000" ∧ ¬Canonical (-5000000) "-.5"
      ∧ ¬Canonical (-5000000) "-00.5000000" := by
  have hstroops : (⟨-5000000⟩ : Amount).stroops.toInt = -5000000 := by decide
  have htext : (⟨-5000000⟩ : Amount).text = "-0.5000000" := by decide +kernel
  have hshort : ofText "-.5" = .ok ⟨-5000000⟩ := by decide +kernel
  have hlong : ofText "-00.5000000" = .ok ⟨-5000000⟩ := by decide +kernel
  obtain ⟨hcanonical, -, hunique, -⟩ := text_canonical ⟨-5000000⟩
  rw [hstroops, htext] at hcanonical hunique
  refine ⟨hcanonical, ?_, ?_⟩
  · rw [hunique _ hshort]
    decide
  · rw [hunique _ hlong]
    decide

end LedgerWire.Amount
