/-
# Prices

A price is a ratio of two integers of 32 bits. A decimal is turned into one by its continued
fraction: the convergents of the decimal are taken in turn, and the last one whose terms fit is the
price.

* `Price.ofDecimal` — the price of a decimal text.
* `Price.ofText` — of a decimal or of a ratio `n/d`.

The expansion works on integers. The number left to expand is held as a count of negative powers of
ten; after the first term that is its reciprocal rounded to twenty places, a half upward.
-/

import LedgerWire.Schema.Record
import LedgerWire.Text.Decimal

namespace LedgerWire

structure Price where
  n : Int32
  d : Int32
  deriving DecidableEq, Repr

namespace Price

open Schema

/-- The denominator must be above zero, and then the numerator not below it. -/
def validate (p : Price) : Except WireError Unit :=
  if p.d ≤ 0 then .error (.validation "price" .denominatorNotPositive)
  else if p.n < 0 then .error (.validation "price" .numeratorNegative)
  else .ok ()

def make (n d : Int32) : Except WireError Price := checked validate ⟨n, d⟩

def toFloat (p : Price) : Float := Float.ofInt p.n.toInt / Float.ofInt p.d.toInt

/-! ### Continued fractions -/

/-- The largest numerator and denominator. -/
def maxTerm : Nat := 0x7fffffff

/-- The places to which a reciprocal is rounded. -/
def reciprocalPlaces : Nat := 20

/-- The most digits after the point that a decimal may count. -/
def maxPlaces : Nat := 30

/-- Two consecutive convergents `h/k`, the later one first. -/
structure Convergents where
  h : Nat
  k : Nat
  h' : Nat
  k' : Nat
  deriving DecidableEq, Repr

/-- Where every expansion starts: `1/0` after `0/1`. -/
def Convergents.start : Convergents := ⟨1, 0, 0, 1⟩

/-- The convergents after one more term, if the new one fits. -/
def Convergents.step? (c : Convergents) (term : Nat) : Option Convergents :=
  let h := term * c.h + c.h'
  let k := term * c.k + c.k'
  if h ≤ maxTerm ∧ k ≤ maxTerm then some ⟨h, k, c.h, c.k⟩ else none

/-- `unit / part` in units of `10 ^ -places`, a half rounded upward. -/
def roundedQuotient (unit part places : Nat) : Nat :=
  let scaled := unit * Nat.pow 10 places
  if 2 * (scaled % part) ≥ part then scaled / part + 1 else scaled / part

/-- Expands `value / 10 ^ places`, term by term, for at most `fuel` terms. -/
def expand : (fuel value places : Nat) → Convergents → Convergents
  | 0, _, _, c => c
  | fuel + 1, value, places, c =>
      let unit := Nat.pow 10 places
      let term := value / unit
      let part := value % unit
      -- The term is too large, or a convergent is: the ones before it are the last.
      if maxTerm < term then c
      else match c.step? term with
        | none => c
        | some c =>
            if part = 0 then c
            -- The next term would be too large, so there is no need for the next round.
            else if maxTerm < unit / part then c
            else expand fuel (roundedQuotient unit part reciprocalPlaces) reciprocalPlaces c

/-- The last convergents of `value / 10 ^ places` that fit. Denominators grow at least like the
Fibonacci numbers, so fewer than 64 terms fit. -/
def convergents (value places : Nat) : Convergents := expand 64 value places .start

/-- The digits after the point, as a word of 32 bits counts them: from `2 ^ 32` on the count starts
at zero again. -/
def countedPlaces (d : Text.Decimal) : Nat := (UInt32.ofNat d.fraction.length).toNat

/-- The price nearest to a decimal text among its convergents that fit. -/
def ofDecimal (s : String) : Except WireError Price :=
  match Text.Decimal.ofText? s with
  | none => .error (.validation "price" (.notDecimal s))
  | some d =>
      if d.negative then .error (.validation "price" (.negativeDecimal s))
      else if maxPlaces < countedPlaces d ∨ Nat.pow 2 128 ≤ d.digits then
        .error (.precision (.priceDigits s))
      else
        let c := convergents d.digits (countedPlaces d)
        -- No term was taken, which leaves the start `1/0`.
        if c.k = 0 then .error (.precision (.priceRange s))
        else .ok ⟨Int32.ofNat c.h, Int32.ofNat c.k⟩

/-! ### Texts -/

def text (p : Price) : String := toString p.n.toInt ++ "/" ++ toString p.d.toInt

/-- A term of a ratio, blanks around it aside. -/
def term? (cs : List Char) : Option Int32 :=
  (Text.integerOfText? (-0x80000000) 0x7fffffff (Text.trim (String.ofList cs))).map Int32.ofInt

/-- The price that a ratio or a decimal text spells. -/
def ofText (s : String) : Except WireError Price :=
  let cs := s.toList
  if cs.contains '/' then
    match term? (cs.takeWhile (· ≠ '/')), term? ((cs.dropWhile (· ≠ '/')).drop 1) with
    | none, _ => .error (.validation "price" (.badNumerator s))
    | some _, none => .error (.validation "price" (.badDenominator s))
    | some n, some d => make n d
  else ofDecimal s

/-- On the wire and in JSON the two terms; they are not validated by themselves. -/
def schema : Schema Price :=
  (field "n" .i32 >> field "d" .i32).record (fun (n, d) => ⟨n, d⟩) fun p => (p.n, p.d)

end Price

end LedgerWire
