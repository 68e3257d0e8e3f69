/-
# What can go wrong with ledger data

Every fault of building, writing or reading ledger data is a `WireError`. The four families that
quote particulars have a type of causes of their own, so a fault can be told from another without
looking at its wording; `message` gives the wording.

* `Violation` — a value breaks a rule that its type promises to keep.
* `Imprecision` — a decimal does not fit the integers that stand for it.
* `Defect` — bytes of a known kind are put together wrongly.
* `WireError` — all faults, with the place they concern.
* `checked` — a value, if it obeys its rules.
-/

import LedgerWire.Strkey
import LedgerWire.Text.Hex

namespace LedgerWire

/-! ### Broken rules -/

/-- Why a value may not be built or written. -/
inductive Violation where
  | lengthAbove (length max : Nat)
  | bytesAbove (bytes max : Nat)
  | bytesOver (bytes max : Nat)
  | bytesOutside (bytes low high : Nat)
  | signersAbove (signers max : Nat)
  | claimantsOutside (claimants low high : Nat)
  | hopsAbove (hops max : Nat)
  | weightOutside (weight max : Nat)
  | feeOutside (fee max : Int)
  | negative (value : Int)
  | amountNotPositive (amount : String)
  | amountNegative (amount : String)
  | denominatorNotPositive
  | numeratorNegative
  | notDecimal (text : String)
  | negativeDecimal (text : String)
  | badNumerator (text : String)
  | badDenominator (text : String)
  | codeLength (code : String) (low high : Nat)
  | codeAlphabet (code : String)
  | notAsset (text : String)
  | badStrkey (fault : Strkey.Fault)
  | badHex (fault : HexError)
  | unordered (first second : String)
  | payloadBytes (bytes expected : Nat)
  | noTtl (entryKind : String)
  | symbolLength (symbol : String) (max : Nat)
  | symbolCharacter (symbol : String) (c : Char)
  | hostCodeOnContract
  | unknownFlags (bits : Nat)
  | aboveMaxPrice
  | noLedgers
  | nativeHasNoIssuer
  | nativeLine
  | flagSetAndCleared
  | nothingToSign
  | notSignable
  deriving DecidableEq, Repr

def Violation.message : Violation → String
  | .lengthAbove n max => s!"length {n} exceeds maximum of {max}"
  | .bytesAbove n max => s!"{n} bytes exceeds maximum of {max}"
  | .bytesOver n max => s!"{n} bytes, at most {max}"
  | .bytesOutside n low high => s!"{n} bytes, expected {low}..={high}"
  | .signersAbove n max => s!"{n} signers exceeds maximum of {max}"
  | .claimantsOutside n low high => s!"{n} claimants, expected {low}..={high}"
  | .hopsAbove n max => s!"{n} hops, at most {max} allowed"
  | .weightOutside n max => s!"{n} is outside 0..={max}"
  | .feeOutside n max => s!"{n} is outside 0..{max}"
  | .negative n => s!"{n} is negative"
  | .amountNotPositive a => s!"{a} must be positive"
  | .amountNegative a => s!"{a} must not be negative"
  | .denominatorNotPositive => "denominator must be positive"
  | .numeratorNegative => "numerator must not be negative"
  | .notDecimal s => s!"'{s}' is not a decimal number"
  | .negativeDecimal s => s!"'{s}' is negative"
  | .badNumerator s => s!"bad numerator in '{s}'"
  | .badDenominator s => s!"bad denominator in '{s}'"
  | .codeLength code low high => s!"'{code}' must be {low}-{high} characters"
  | .codeAlphabet code => s!"'{code}' must be ASCII letters and digits"
  | .notAsset s => s!"expected CODE:ISSUER, got '{s}'"
  | .badStrkey fault => fault.message
  | .badHex fault => fault.message
  | .unordered a b => s!"{a} must sort before {b}"
  | .payloadBytes n expected => s!"{n} byte payload, expected {expected}"
  | .noTtl kind => s!"{kind} entries have no TTL"
  | .symbolLength s max => s!"'{s}' is longer than {max} characters"
  | .symbolCharacter s c => "'" ++ s ++ "' contains invalid character " ++ Text.quoteChar c
  | .hostCodeOnContract => "contract errors carry a numeric code, not a host code"
  | .unknownFlags bits => "unknown flag bits 0x" ++ Text.hexNumeral bits
  | .aboveMaxPrice => "exceeds max_price"
  | .noLedgers => "must be at least one ledger"
  | .nativeHasNoIssuer => "the native asset has no issuer"
  | .nativeLine => "cannot trust the native asset"
  | .flagSetAndCleared => "a flag cannot be both set and cleared"
  | .nothingToSign => "source-account credentials carry no signature payload"
  | .notSignable => "source-account credentials cannot be signed"

/-! ### Lost precision -/

/-- Why a decimal does not fit. -/
inductive Imprecision where
  | fractionDigits (text : String)
  | amountRange (text : String)
  | priceDigits (text : String)
  | priceRange (text : String)
  deriving DecidableEq, Repr

/-- The sentence that reports a decimal that does not fit. -/
def Imprecision.message : Imprecision → String
  | .fractionDigits s => s!"'{s}' has more than 7 fractional digits"
  | .amountRange s => s!"'{s}' does not fit in a 64-bit amount"
  | .priceDigits s => s!"'{s}' has too many digits for a price"
  | .priceRange s => s!"'{s}' is too large to express as a price"

/-! ### Malformed bytes -/

/-- What is wrong with bytes of a known kind. -/
inductive Defect where
  | notBoolean (word : Nat)
  | padding
  | lengthAbove (length max : Nat)
  | countAbove (count max : Nat)
  | notUtf8
  | byteAfterEnd
  | notAscii
  | invalid (field : String) (why : Violation)
  | childCount (children : Nat)
  | missingChild
  | idLength (bytes : Nat)
  deriving DecidableEq, Repr

def Defect.message : Defect → String
  | .notBoolean n => s!"expected 0 or 1, got {n}"
  | .padding => "non-zero padding"
  | .lengthAbove n max => s!"length {n} exceeds maximum of {max}"
  | .countAbove n max => s!"{n} elements exceeds maximum of {max}"
  | .notUtf8 => "not valid UTF-8"
  | .byteAfterEnd => "non-zero byte after padding"
  | .notAscii => "not ASCII"
  | .invalid field why => "invalid " ++ field ++ ": " ++ why.message
  | .childCount n => s!"binary predicate has {n} children, expected 2"
  | .missingChild => "Not without a child"
  | .idLength n => s!"{n} bytes, expected 32 or 36"

/-! ### All faults -/

/-- A fault of building, writing or reading ledger data. -/
inductive WireError where
  | validation (field : String) (why : Violation)
  | precision (why : Imprecision)
  | unknownVariant (kind : String) (value : Int32)
  | malformed (kind : String) (what : Defect)
  | unsupported (what : String)
  | unexpectedEnd (needed remaining : Nat)
  | trailingBytes (count : Nat)
  | depthLimitExceeded (limit : Nat)
  | base64
  deriving DecidableEq, Repr

def WireError.message : WireError → String
  | .validation field why => "invalid " ++ field ++ ": " ++ why.message
  | .precision why => "precision error: " ++ why.message
  | .unknownVariant kind value => "unknown " ++ kind ++ " discriminant: " ++ toString value.toInt
  | .malformed kind what => "malformed " ++ kind ++ ": " ++ what.message
  | .unsupported what => what ++ " is no longer supported"
  | .unexpectedEnd needed remaining =>
      s!"unexpected end of input: needed {needed} bytes, {remaining} remaining"
  | .trailingBytes n => s!"{n} trailing bytes after decoded value"
  | .depthLimitExceeded n => s!"nesting depth limit of {n} exceeded"
  | .base64 => "invalid base64"

/-! ### Values that obey their rules -/

/-- The value, if it obeys the rules. -/
def checked {α : Type} (validate : α → Except WireError Unit) (a : α) : Except WireError α := do
  validate a
  return a

/-- A check passes exactly the values that obey the rules, and changes none. -/
theorem checked_eq_ok_iff {α : Type} {validate : α → Except WireError Unit} {a b : α} :
    checked validate a = .ok b ↔ validate a = .ok () ∧ a = b := by
  unfold checked
  cases h : validate a with
  | ok u => simp [bind, Except.bind, pure, Except.pure]
  | error e => simp [bind, Except.bind]

end LedgerWire
