/-
# The price window of a deposit

A deposit names the least and the greatest price it agrees to. They are compared by products across,
which orders ratios only if both denominators are above zero; so both prices are judged first. The
products are of words of 32 bits and are made in words of 64, where a product that does not fit
would come to nothing. This never happens, and the window is judged as the ratios are ordered.

* `Price.ratio`, `Price.ratio_le_ratio_iff` — the number of a price, and products across.
* `LiquidityPoolDepositOp.Words.exists_product` — the product of two terms fits.
* `LiquidityPoolDepositOp.Words.validate_eq` — so does every product of the validation.
* `LiquidityPoolDepositOp.validate_eq_ok_iff` — what the validation asks for.
* `LiquidityPoolDepositOp.window_exact` — both.
-/

import LedgerWire.Proofs.Validation
import Mathlib.Algebra.Order.Field.Basic
import Mathlib.Algebra.Order.Field.Rat

namespace LedgerWire

/-! ### Ratios -/

namespace Price

variable {p q : Price}

/-- The price as an exact number. -/
def ratio (p : Price) : ℚ := p.n.toInt / p.d.toInt

/-- A price obeys its rules if its numerator is not below zero and its denominator above it. -/
theorem validate_eq_ok_iff : p.validate = .ok () ↔ 0 ≤ p.n ∧ 0 < p.d := by
  unfold validate
  rw [unless_eq_ok_iff, unless_eq_ok_iff, Int32.not_le, Int32.not_lt, and_iff_left rfl, and_comm]

/-- **Products across order ratios**, because the denominators are above zero. -/
theorem ratio_le_ratio_iff (hp : 0 < p.d) (hq : 0 < q.d) :
    p.ratio ≤ q.ratio ↔ p.n.toInt * q.d.toInt ≤ q.n.toInt * p.d.toInt := by
  have hp' : (0 : ℚ) < p.d.toInt := by exact_mod_cast Int32.lt_iff_toInt_lt.1 hp
  have hq' : (0 : ℚ) < q.d.toInt := by exact_mod_cast Int32.lt_iff_toInt_lt.1 hq
  unfold ratio
  rw [div_le_div_iff₀ hp' hq']
  exact_mod_cast Iff.rfl

end Price

namespace LiquidityPoolDepositOp

variable {op : LiquidityPoolDepositOp}

/-- **A deposit obeys the rules** if both amounts are above zero, both prices valid, and the least
price not above the greatest. -/
theorem validate_eq_ok_iff : op.validate = .ok () ↔
    0 < op.maxAmountA.stroops ∧ 0 < op.maxAmountB.stroops
      ∧ (0 ≤ op.minPrice.n ∧ 0 < op.minPrice.d) ∧ (0 ≤ op.maxPrice.n ∧ 0 < op.maxPrice.d)
      ∧ op.minPrice.ratio ≤ op.maxPrice.ratio := by
  have hwindow : (if op.maxPrice.n.toInt * op.minPrice.d.toInt
        < op.minPrice.n.toInt * op.maxPrice.d.toInt then
        throw (.validation "min_price" .aboveMaxPrice) else pure () : Except WireError Unit)
      = .ok ()
      ↔ op.minPrice.n.toInt * op.maxPrice.d.toInt ≤ op.maxPrice.n.toInt * op.minPrice.d.toInt := by
    refine unless_eq_ok_iff.trans ?_
    rw [Int.not_lt]
    exact and_iff_left rfl
  unfold validate
  rw [seq_eq_ok_iff, seq_eq_ok_iff, seq_eq_ok_iff, seq_eq_ok_iff, hwindow,
    Amount.requirePositive, Amount.requirePositive, provided_eq_ok_iff, provided_eq_ok_iff,
    Price.validate_eq_ok_iff, Price.validate_eq_ok_iff]
  refine and_congr_right fun _ => and_congr_right fun _ => ?_
  refine and_congr_right fun hmin => and_congr_right fun hmax => ?_
  exact (Price.ratio_le_ratio_iff hmin.2 hmax.2).symm

/-! ### Words of 64 bits -/

namespace Words

/-- The product of two words of 64 bits, if it is one. -/
def product? (a b : Int64) : Option Int64 :=
  if -2 ^ 63 ≤ a.toInt * b.toInt ∧ a.toInt * b.toInt < 2 ^ 63 then some (a * b) else none

/-- The window is judged by products of words, if both of them fit. -/
def checkWindow (low high : Price) : Option (Except WireError Unit) := do
  let left ← product? low.n.toInt64 high.d.toInt64
  let right ← product? high.n.toInt64 low.d.toInt64
  return if right < left then .error (.validation "min_price" .aboveMaxPrice) else .ok ()

/-- The rules that are judged before the window. -/
def firstRules (op : LiquidityPoolDepositOp) : Except WireError Unit := do
  op.maxAmountA.requirePositive "max_amount_a"
  op.maxAmountB.requirePositive "max_amount_b"
  op.minPrice.validate
  op.maxPrice.validate

/-- The validation with products of words. An input that breaks an earlier rule does not reach
them. -/
def validate (op : LiquidityPoolDepositOp) : Option (Except WireError Unit) :=
  match firstRules op with
  | .error e => some (.error e)
  | .ok () => checkWindow op.minPrice op.maxPrice

/-- **The product of two terms of 32 bits fits**, whatever they are. -/
theorem exists_product (a b : Int32) :
    ∃ c, product? a.toInt64 b.toInt64 = some c ∧ c.toInt = a.toInt * b.toInt := by
  have hterm (t : Int32) : |t.toInt| ≤ 2 ^ 31 := abs_le.2 ⟨t.le_toInt, t.toInt_le.trans (by decide)⟩
  have habs : |a.toInt * b.toInt| ≤ 2 ^ 31 * 2 ^ 31 := by
    rw [abs_mul]
    exact mul_le_mul (hterm a) (hterm b) (abs_nonneg _) (by decide)
  obtain ⟨hlower, hupper⟩ := abs_le.1 habs
  have hfits : -2 ^ 63 ≤ a.toInt64.toInt * b.toInt64.toInt
      ∧ a.toInt64.toInt * b.toInt64.toInt < 2 ^ 63 := by
    rw [Int32.toInt_toInt64, Int32.toInt_toInt64]
    constructor <;> omega
  refine ⟨a.toInt64 * b.toInt64, if_pos hfits, ?_⟩
  rw [Int64.toInt_mul, Int32.toInt_toInt64, Int32.toInt_toInt64]
  exact Int.bmod_eq_of_le (by omega) (by omega)

/-- The two products of the check stay within 64 bits, so the machine's comparison is the one of
integers. -/
theorem checkWindow_eq (low high : Price) : checkWindow low high
    = some (if high.n.toInt * low.d.toInt < low.n.toInt * high.d.toInt then
        .error (.validation "min_price" .aboveMaxPrice) else .ok ()) := by
  obtain ⟨left, hleft, hleftExact⟩ := exists_product low.n high.d
  obtain ⟨right, hright, hrightExact⟩ := exists_product high.n low.d
  rw [← hleftExact, ← hrightExact]
  simp [checkWindow, hleft, hright, Int64.lt_iff_toInt_lt]

/-- **No product of the validation is spoiled**, and it finds what exact products find. -/
theorem validate_eq (op : LiquidityPoolDepositOp) : validate op = some op.validate := by
  have hwindow : op.validate = (do
      firstRules op
      if op.maxPrice.n.toInt * op.minPrice.d.toInt < op.minPrice.n.toInt * op.maxPrice.d.toInt then
        throw (.validation "min_price" .aboveMaxPrice)) := by
    simp only [LiquidityPoolDepositOp.validate, firstRules, bind_assoc]
  rw [hwindow, validate, checkWindow_eq]
  cases firstRules op <;> rfl

end Words

/-- **The window of a deposit is exact.** A deposit obeys the rules exactly if both amounts are
above zero, both prices have a numerator that is not below zero and a denominator above it, and the
least price is at most the greatest as a ratio; and words of 64 bits hold every product that the
validation makes. -/
theorem window_exact (op : LiquidityPoolDepositOp) :
    (op.validate = .ok () ↔
      0 < op.maxAmountA.stroops ∧ 0 < op.maxAmountB.stroops
        ∧ (0 ≤ op.minPrice.n ∧ 0 < op.minPrice.d) ∧ (0 ≤ op.maxPrice.n ∧ 0 < op.maxPrice.d)
        ∧ op.minPrice.ratio ≤ op.maxPrice.ratio)
      ∧ Words.validate op = some op.validate :=
  ⟨validate_eq_ok_iff, Words.validate_eq op⟩

end LiquidityPoolDepositOp

end LedgerWire
