/-
# Accounts

An account is named by its Ed25519 key. A muxed account is an account, or one of the numbered
accounts that share it.

* `AccountId`, `MuxedAccount` — the two kinds of name.
* `AccountId.text`, `MuxedAccount.text` and their `ofText` — the strkey forms: the first letter
  tells a muxed account from a plain one.
* `AccountId.schema`, `MuxedAccount.schema` — on the wire and in JSON.
-/

import LedgerWire.Schema.Union

namespace LedgerWire

/-- An account, named by its Ed25519 public key. -/
structure AccountId where
  key : Vector UInt8 32
  deriving DecidableEq, Repr

namespace AccountId

def toList (a : AccountId) : Bytes := a.key.toList

def text (a : AccountId) : String := Strkey.encode .accountId a.toList

def ofText (s : String) : Except Strkey.Fault AccountId :=
  (Strkey.decodeFixed 32 .accountId s).map mk

/-- The key alone. -/
def keyWire : Codec AccountId := (Codec.fixed 32).imap mk key

/-- The key behind the discriminant of its type. -/
def wire : Codec AccountId :=
  .union "PublicKeyType" [.of 0 keyWire id some]

def schema : Schema AccountId := .shownAs text ofText Strkey.Fault.message wire

end AccountId

/-- An account, or one of the numbered accounts that share it. -/
inductive MuxedAccount where
  | ed25519 (account : AccountId)
  | muxed (id : UInt64) (account : AccountId)
  deriving DecidableEq, Repr

namespace MuxedAccount

def accountId : MuxedAccount → AccountId
  | .ed25519 account => account
  | .muxed _ account => account

def muxId? : MuxedAccount → Option UInt64
  | .ed25519 _ => none
  | .muxed id _ => some id

/-- The strkey: of the account, or of its key followed by the number. -/
def text : MuxedAccount → String
  | .ed25519 account => account.text
  | .muxed id account =>
      Strkey.encode .muxedAccount (account.toList ++ Bytes.bigEndian 8 id.toNat)

/-- The muxed account that a key and a number, together 40 bytes, stand for. -/
def ofPayload (payload : Bytes) : Except Strkey.Fault MuxedAccount :=
  match Bytes.fixed? 32 (payload.take 32), Bytes.fixed? 8 (payload.drop 32) with
  | some key, some id => .ok (.muxed (UInt64.ofNat (Bytes.toNat id.toList)) ⟨key⟩)
  | _, _ => .error (.payloadLength payload.length)

def ofText (s : String) : Except Strkey.Fault MuxedAccount := do
  if s.toList.head? = some Strkey.Version.muxedAccount.letter then
    ofPayload (← Strkey.decode .muxedAccount s)
  else
    return .ed25519 (← AccountId.ofText s)

/-- On the wire the number stands before the key. -/
def wire : Codec MuxedAccount :=
  .union "CryptoKeyType"
    [ .of 0 AccountId.keyWire .ed25519 fun
        | .ed25519 account => some account
        | _ => none,
      .of 0x100 (Codec.u64.both AccountId.keyWire) (fun (id, account) => .muxed id account) fun
        | .muxed id account => some (id, account)
        | _ => none ]

def schema : Schema MuxedAccount := .shownAs text ofText Strkey.Fault.message wire

end MuxedAccount

end LedgerWire
