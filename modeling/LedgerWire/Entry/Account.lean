/-
# Account entries

What the ledger keeps of an account. Fields that were added over time stand in a chain of
extensions: each link is absent, or holds its fields and the next link.

* `AccountEntry` — an account; `validate` judges the balance, the home domain and the signers.
* `AccountEntry.withHomeDomain`, `AccountEntry.withSigners` — changes that keep the account valid.
-/

import LedgerWire.Amount
import LedgerWire.Signer
import LedgerWire.Schema.Union

namespace LedgerWire

open Schema

/-- Amounts that open offers are committed to. -/
structure Liabilities where
  buying : Amount
  selling : Amount
  deriving DecidableEq, Repr

def Liabilities.schema : Schema Liabilities :=
  (field "buying" Amount.schema >> field "selling" Amount.schema).record
    (fun (buying, selling) => ⟨buying, selling⟩) fun l => (l.buying, l.selling)

/-- The weight of an account's own key, and the weights that three levels of operations need. -/
structure Thresholds where
  masterWeight : UInt8
  low : UInt8
  medium : UInt8
  high : UInt8
  deriving DecidableEq, Repr

namespace Thresholds

def toVector (t : Thresholds) : Vector UInt8 4 := #v[t.masterWeight, t.low, t.medium, t.high]

def ofVector (v : Vector UInt8 4) : Thresholds := ⟨v[0], v[1], v[2], v[3]⟩

/-- On the wire four bytes, in JSON a record of four numbers. -/
def schema : Schema Thresholds where
  wire := (Codec.fixed 4).imap ofVector toVector
  json :=
    ((Json.Members.member "master_weight" .u8).both <| (Json.Members.member "low" .u8).both <|
      (Json.Members.member "medium" .u8).both <| Json.Members.member "high" .u8).object
      (fun (masterWeight, low, medium, high) => ⟨masterWeight, low, medium, high⟩)
      fun t => (t.masterWeight, t.low, t.medium, t.high)

end Thresholds

/-! ### Extensions -/

/-- The third extension: when the sequence number was last bumped. -/
structure AccountEntryExtensionV3 where
  seqLedger : UInt32
  seqTime : UInt64
  deriving DecidableEq, Repr

/-- On the wire and in JSON, behind a reserved slot. -/
def AccountEntryExtensionV3.schema : Schema AccountEntryExtensionV3 :=
  (field "ext" reserved >> field "seq_ledger" .u32 >> field "seq_time" .u64).record
    (fun ((), seqLedger, seqTime) => ⟨seqLedger, seqTime⟩) fun x => ((), x.seqLedger, x.seqTime)

/-- The second extension: what the account sponsors, and who sponsors its signers, if anyone. -/
structure AccountEntryExtensionV2 where
  numSponsored : UInt32
  numSponsoring : UInt32
  signerSponsoringIds : List (Option AccountId)
  ext : Option AccountEntryExtensionV3
  deriving DecidableEq, Repr

def AccountEntryExtensionV2.schema : Schema AccountEntryExtensionV2 :=
  (field "num_sponsored" .u32 >> field "num_sponsoring" .u32
    >> field "signer_sponsoring_ids" (.array Limits.signers "signerSponsoringIDs"
        "signer_sponsoring_ids" (.optional AccountId.schema))
    >> field "ext" (.extension 3 "AccountEntryExtensionV2.ext"
        AccountEntryExtensionV3.schema)).record
    (fun (numSponsored, numSponsoring, signerSponsoringIds, ext) =>
      ⟨numSponsored, numSponsoring, signerSponsoringIds, ext⟩)
    fun x => (x.numSponsored, x.numSponsoring, x.signerSponsoringIds, x.ext)

/-- The first extension: amounts committed to offers. -/
structure AccountEntryExtensionV1 where
  liabilities : Liabilities
  ext : Option AccountEntryExtensionV2
  deriving DecidableEq, Repr

def AccountEntryExtensionV1.schema : Schema AccountEntryExtensionV1 :=
  (field "liabilities" Liabilities.schema
    >> field "ext" (.extension 2 "AccountEntryExtensionV1.ext"
        AccountEntryExtensionV2.schema)).record
    (fun (liabilities, ext) => ⟨liabilities, ext⟩) fun x => (x.liabilities, x.ext)

/-! ### Accounts -/

structure AccountEntry where
  accountId : AccountId
  balance : Amount
  seqNum : Int64
  numSubEntries : UInt32
  inflationDest : Option AccountId
  flags : UInt32
  homeDomain : String
  thresholds : Thresholds
  signers : List Signer
  ext : Option AccountEntryExtensionV1
  deriving DecidableEq, Repr

def homeDomainSchema : Schema String := .text Limits.homeDomain "HomeDomain" "home_domain"

namespace AccountEntry

/-- The balance is not negative, the home domain and the list of signers are within their bounds,
and the signers obey their rules. -/
def validate (a : AccountEntry) : Except WireError Unit := do
  a.balance.requireNonNegative "balance"
  if Limits.homeDomain.toNat < a.homeDomain.utf8ByteSize then
    throw (.validation "home_domain"
      (.bytesAbove a.homeDomain.utf8ByteSize Limits.homeDomain.toNat))
  if Limits.signers.toNat < a.signers.length then
    throw (.validation "signers" (.signersAbove a.signers.length Limits.signers.toNat))
  a.signers.forM Signer.validate

/-- A new account: its own key has weight 1, no level asks for more, and there are no signers. -/
def make (accountId : AccountId) (balance : Amount) (seqNum : Int64) :
    Except WireError AccountEntry :=
  checked validate
    { accountId, balance, seqNum, numSubEntries := 0, inflationDest := none, flags := 0,
      homeDomain := "", thresholds := ⟨1, 0, 0, 0⟩, signers := [], ext := none }

def withHomeDomain (a : AccountEntry) (homeDomain : String) : Except WireError AccountEntry :=
  checked validate { a with homeDomain }

def withSigners (a : AccountEntry) (signers : List Signer) : Except WireError AccountEntry :=
  checked validate { a with signers }

def schema : Schema AccountEntry :=
  ((field "account_id" AccountId.schema >> field "balance" Amount.schema >> field "seq_num" .i64
    >> field "num_sub_entries" .u32 >> field "inflation_dest" (.optional AccountId.schema)
    >> field "flags" .u32 >> field "home_domain" homeDomainSchema
    >> field "thresholds" Thresholds.schema
    >> field "signers" (.array Limits.signers "AccountEntry.signers" "signers" Signer.schema)
    >> field "ext" (.extension 1 "AccountEntry.ext" AccountEntryExtensionV1.schema)).record
    (fun (accountId, balance, seqNum, numSubEntries, inflationDest, flags, homeDomain, thresholds,
      signers, ext) =>
      ⟨accountId, balance, seqNum, numSubEntries, inflationDest, flags, homeDomain, thresholds,
        signers, ext⟩)
    fun a => (a.accountId, a.balance, a.seqNum, a.numSubEntries, a.inflationDest, a.flags,
      a.homeDomain, a.thresholds, a.signers, a.ext)).guarded validate

end AccountEntry

end LedgerWire
