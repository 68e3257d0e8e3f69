/-
# Assets

What can be held, paid and traded: the native asset, or a credit that an account issues under a
code. Codes are ASCII letters and digits; short ones take four bytes on the wire and long ones
twelve, filled up with zero bytes.

* `Credit`, `Asset` — a code with its issuer, and any asset.
* `Asset.ofText`, `Asset.text` — `native`, or the code and the issuer with a colon between them.
* `Asset.arms` — the arms of an asset inside any union that extends it.
* The order of assets: native, then short codes, then long ones, each by code and by issuer.
-/

import LedgerWire.Account
import LedgerWire.Schema.Record

namespace LedgerWire

/-! ### Codes -/

/-- How many bytes a code takes on the wire. -/
inductive CodeWidth where
  | four
  | twelve
  deriving DecidableEq, Repr

namespace CodeWidth

def low : CodeWidth → Nat
  | .four => 1
  | .twelve => 5

/-- The longest code of the width, which fills it. -/
def high : CodeWidth → Nat
  | .four => 4
  | .twelve => 12

def ofLength (length : Nat) : CodeWidth := if length ≤ 4 then .four else .twelve

end CodeWidth

def isCodeByte (b : UInt8) : Bool :=
  let n := b.toNat
  (48 ≤ n && n ≤ 57) || (65 ≤ n && n ≤ 90) || (97 ≤ n && n ≤ 122)

/-- The broken rule of a code of the given width, if it breaks one. -/
def codeViolation? (width : CodeWidth) (code : String) : Option Violation :=
  let bytes := Bytes.ofString code
  if bytes.length < width.low ∨ width.high < bytes.length then
    some (.codeLength code width.low width.high)
  else if !bytes.all isCodeByte then some (.codeAlphabet code)
  else none

def checkCode (width : CodeWidth) (code : String) : Except WireError Unit :=
  match codeViolation? width code with
  | some why => .error (.validation "asset_code" why)
  | none => .ok ()

/-- A code filled up with zero bytes. -/
def codeBytes (width : CodeWidth) (code : String) : Vector UInt8 width.high :=
  Vector.ofFn fun i => (Bytes.ofString code).getD i 0

/-- The code in bytes that end with any number of zeros. After the first zero only zeros may
follow. -/
def codeOfBytes (width : CodeWidth) (raw : Vector UInt8 width.high) : Except WireError String :=
  let code := raw.toList.takeWhile (· ≠ 0)
  let rest := raw.toList.dropWhile (· ≠ 0)
  if rest.any (· ≠ 0) then .error (.malformed "AssetCode" .byteAfterEnd)
  else match Bytes.toText? code with
    | none => .error (.malformed "AssetCode" .notAscii)
    | some code =>
        match codeViolation? width code with
        | some why => .error (.malformed "AssetCode" (.invalid "asset_code" why))
        | none => .ok code

def codeSchema (width : CodeWidth) : Schema String :=
  ⟨(Codec.fixed width.high).convert (codeOfBytes width) (codeBytes width), .string⟩

/-! ### Credits -/

/-- What an account issues under a code. -/
structure Credit where
  code : String
  issuer : AccountId
  deriving DecidableEq, Repr

namespace Credit

open Schema

def validate (width : CodeWidth) (c : Credit) : Except WireError Unit := checkCode width c.code

def make (width : CodeWidth) (code : String) (issuer : AccountId) : Except WireError Credit :=
  checked (validate width) ⟨code, issuer⟩

/-- A credit on the wire and in JSON; its code is checked in both directions. -/
def schema (width : CodeWidth) : Schema Credit :=
  ((field "code" (codeSchema width) >> field "issuer" AccountId.schema).record
    (fun (code, issuer) => ⟨code, issuer⟩) fun c => (c.code, c.issuer)).guarded (validate width)

end Credit

/-! ### Assets -/

/-- What can be held, paid and traded. -/
inductive Asset where
  | native
  | credit (width : CodeWidth) (credit : Credit)
  deriving DecidableEq, Repr

namespace Asset

/-- A credit asset whose width follows from the length of its code. -/
def ofCredit (code : String) (issuer : AccountId) : Except WireError Asset := do
  let width := CodeWidth.ofLength code.utf8ByteSize
  return .credit width (← Credit.make width code issuer)

def code? : Asset → Option String
  | .native => none
  | .credit _ c => some c.code

def issuer? : Asset → Option AccountId
  | .native => none
  | .credit _ c => some c.issuer

def validate : Asset → Except WireError Unit
  | .native => .ok ()
  | .credit width c => c.validate width

/-! ### Order -/

/-- The place of the asset's kind in the order of kinds. -/
def rank : Asset → Nat
  | .native => 0
  | .credit .four _ => 1
  | .credit .twelve _ => 2

/-- What the assets of one kind are ordered by: the bytes of the code, then those of the issuer's
address. -/
def orderKey : Asset → Bytes × Bytes
  | .native => ([], [])
  | .credit _ c => (Bytes.ofString c.code, Bytes.ofString c.issuer.text)

/-- Assets are ordered by kind, then by code, then by issuer. -/
instance : Ord Asset where
  compare a b :=
    (compare a.rank b.rank).then <|
      (compare a.orderKey.1 b.orderKey.1).then (compare a.orderKey.2 b.orderKey.2)

/-! ### Texts -/

/-- `native`, or the code and the issuer with a colon between them. -/
def text : Asset → String
  | .native => "native"
  | .credit _ c => c.code ++ ":" ++ c.issuer.text

/-- The asset that a text names. The issuer is read before the code is judged. -/
def ofText (s : String) : Except WireError Asset :=
  if s = "native" then .ok .native
  else
    let cs := s.toList
    if cs.contains ':' then
      let code := String.ofList (cs.takeWhile (· ≠ ':'))
      let issuer := String.ofList ((cs.dropWhile (· ≠ ':')).drop 1)
      match AccountId.ofText issuer with
      | .error fault => .error (.validation "asset_issuer" (.badStrkey fault))
      | .ok issuer => ofCredit code issuer
    else .error (.validation "asset" (.notAsset s))

/-! ### Wire form -/

/-- The credit, if the asset is one with codes of this width. -/
def credit? (width : CodeWidth) : Asset → Option Credit
  | .native => none
  | .credit w c => if w = width then some c else none

/-- The arms of an asset, in a union that assets are part of. -/
def arms {α : Type} (inject : Asset → α) (project : α → Option Asset) : List (Schema.Arm α) :=
  [ .bare 0 "native" (inject .native) fun a => project a == some .native,
    .of 1 "credit_alphanum4" (Credit.schema .four) (fun c => inject (.credit .four c))
      fun a => (project a).bind (credit? .four),
    .of 2 "credit_alphanum12" (Credit.schema .twelve) (fun c => inject (.credit .twelve c))
      fun a => (project a).bind (credit? .twelve) ]

def schema : Schema Asset :=
  .shownAs text ofText WireError.message (Schema.union "AssetType" (arms id some)).wire

end Asset

end LedgerWire
