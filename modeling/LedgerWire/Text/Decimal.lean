/-
# Decimal numerals

Plain decimal texts: an optional sign, ASCII digits, and at most one point among them, with at
least one digit in all. A numeral keeps its digits as they were written, so that a reader can judge
how many there are before it asks what they are worth.

* `Decimal.ofText?` — the parts of a numeral.
* `Decimal.scaled` — its worth in units of a negative power of ten.
* `integerOfText?` — numerals of integers, within a range.
-/

namespace LedgerWire.Text

/-- The parts of a decimal numeral; the digits are those before and after the point. -/
structure Decimal where
  negative : Bool
  whole : List Char
  fraction : List Char
  deriving DecidableEq, Repr

/-- The number that decimal digits spell. -/
def natOfDigits (digits : List Char) : Nat :=
  digits.foldl (fun n c => 10 * n + (c.toNat - '0'.toNat)) 0

/-- A sign in front, if one is there: whether it is a minus, and the rest. -/
def splitSign : List Char → Bool × List Char
  | '-' :: rest => (true, rest)
  | '+' :: rest => (false, rest)
  | cs => (false, cs)

namespace Decimal

/-- The parts of a numeral, if the text is one. -/
def ofText? (s : String) : Option Decimal :=
  let (negative, cs) := splitSign s.toList
  let whole := cs.takeWhile (· ≠ '.')
  let fraction := (cs.dropWhile (· ≠ '.')).drop 1
  -- A point alone is no numeral, and a second point is no digit.
  if (whole.isEmpty && fraction.isEmpty) || !(whole ++ fraction).all Char.isDigit then none
  else some ⟨negative, whole, fraction⟩

/-- The digits as one number, as if the point were not there. -/
def digits (d : Decimal) : Nat := natOfDigits (d.whole ++ d.fraction)

/-- The worth in units of `10 ^ -places`, for a numeral with at most so many digits after the
point. -/
def scaled (d : Decimal) (places : Nat) : Int :=
  let magnitude : Nat := d.digits * Nat.pow 10 (places - d.fraction.length)
  if d.negative then -magnitude else magnitude

end Decimal

/-- The integer that a numeral without a point spells, if it lies from `low` to `high`. -/
def integerOfText? (low high : Int) (s : String) : Option Int :=
  let (negative, digits) := splitSign s.toList
  if digits.isEmpty || !digits.all Char.isDigit then none
  else
    let magnitude : Int := natOfDigits digits
    let n := if negative then -magnitude else magnitude
    if low ≤ n ∧ n ≤ high then some n else none

/-- The decimal digits of a number, filled up with zeros in front to the given width. -/
def paddedDigits (width n : Nat) : String :=
  let digits := toString n
  String.ofList (List.replicate (width - digits.length) '0') ++ digits

end LedgerWire.Text
