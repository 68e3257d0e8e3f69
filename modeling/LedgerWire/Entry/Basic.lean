/-
# Ledger entries

An object on the ledger, with the ledger that changed it last and the account that sponsors it.

* `LedgerEntryData`, `LedgerEntry` — the objects.
* `LedgerEntryData.ledgerKey` — the key that finds an object; it is of the object's kind.
-/

import LedgerWire.Entry.Data
import LedgerWire.Entry.Market

namespace LedgerWire

open Schema

/-- What the ledger keeps of an object. -/
inductive LedgerEntryData where
  | account (entry : AccountEntry)
  | trustline (entry : TrustLineEntry)
  | offer (entry : OfferEntry)
  | data (entry : DataEntry)
  | claimableBalance (entry : ClaimableBalanceEntry)
  | liquidityPool (entry : LiquidityPoolEntry)
  | contractData (entry : ContractDataEntry)
  | contractCode (entry : ContractCodeEntry)
  | configSetting (entry : ConfigSetting)
  | ttl (entry : TtlEntry)
  deriving DecidableEq, Repr

namespace LedgerEntryData

def entryType : LedgerEntryData → LedgerEntryType
  | .account _ => .account
  | .trustline _ => .trustline
  | .offer _ => .offer
  | .data _ => .data
  | .claimableBalance _ => .claimableBalance
  | .liquidityPool _ => .liquidityPool
  | .contractData _ => .contractData
  | .contractCode _ => .contractCode
  | .configSetting _ => .configSetting
  | .ttl _ => .ttl

/-- The key that finds the object. A data entry's name is taken as it is. -/
def ledgerKey : LedgerEntryData → LedgerKey
  | .account e => .account e.accountId
  | .trustline e => .trustline e.accountId e.asset
  | .offer e => .offer e.sellerId e.offerId
  | .data e => .data e.accountId e.dataName
  | .claimableBalance e => .claimableBalance e.balanceId
  | .liquidityPool e => .liquidityPool e.poolId
  | .contractData e => .contractData e.contract e.key e.durability
  | .contractCode e => .contractCode e.hash
  | .configSetting e => .configSetting e.id
  | .ttl e => .ttl e.keyHash

def schema : Schema LedgerEntryData :=
  .union "LedgerEntryType"
    [ .of 0 "account" AccountEntry.schema .account fun | .account e => some e | _ => none,
      .of 1 "trustline" TrustLineEntry.schema .trustline fun
        | .trustline e => some e
        | _ => none,
      .of 2 "offer" OfferEntry.schema .offer fun | .offer e => some e | _ => none,
      .of 3 "data" DataEntry.schema .data fun | .data e => some e | _ => none,
      .of 4 "claimable_balance" ClaimableBalanceEntry.schema .claimableBalance fun
        | .claimableBalance e => some e
        | _ => none,
      .of 5 "liquidity_pool" LiquidityPoolEntry.schema .liquidityPool fun
        | .liquidityPool e => some e
        | _ => none,
      .of 6 "contract_data" ContractDataEntry.schema .contractData fun
        | .contractData e => some e
        | _ => none,
      .of 7 "contract_code" ContractCodeEntry.schema .contractCode fun
        | .contractCode e => some e
        | _ => none,
      .of 8 "config_setting" ConfigSetting.schema .configSetting fun
        | .configSetting e => some e
        | _ => none,
      .of 9 "ttl" TtlEntry.schema .ttl fun | .ttl e => some e | _ => none ]

end LedgerEntryData

/-- The first extension of an entry: the account that pays for the object's reserve, if another
than its owner does. -/
structure LedgerEntryExtensionV1 where
  sponsoringId : Option AccountId
  deriving DecidableEq, Repr

/-- On the wire and in JSON, before a reserved slot. -/
def LedgerEntryExtensionV1.schema : Schema LedgerEntryExtensionV1 :=
  (field "sponsoring_id" (.optional AccountId.schema) >> field "ext" reserved).record
    (fun (sponsoringId, ()) => ⟨sponsoringId⟩) fun x => (x.sponsoringId, ())

/-- An object on the ledger. -/
structure LedgerEntry where
  lastModifiedLedgerSeq : UInt32
  data : LedgerEntryData
  ext : Option LedgerEntryExtensionV1
  deriving DecidableEq, Repr

namespace LedgerEntry

/-- An object that nobody else sponsors. -/
def ofData (lastModifiedLedgerSeq : UInt32) (data : LedgerEntryData) : LedgerEntry :=
  ⟨lastModifiedLedgerSeq, data, none⟩

def ledgerKey (e : LedgerEntry) : LedgerKey := e.data.ledgerKey

def schema : Schema LedgerEntry :=
  (field "last_modified_ledger_seq" .u32 >> field "data" LedgerEntryData.schema
    >> field "ext" (.extension 1 "LedgerEntry.ext" LedgerEntryExtensionV1.schema)).record
    (fun (lastModifiedLedgerSeq, data, ext) => ⟨lastModifiedLedgerSeq, data, ext⟩)
    fun e => (e.lastModifiedLedgerSeq, e.data, e.ext)

end LedgerEntry

end LedgerWire
