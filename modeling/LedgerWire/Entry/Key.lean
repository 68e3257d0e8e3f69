/-
# Keys of ledger entries

Every object on the ledger is found by its key: the kind of object, and just enough of its fields
to tell it from the others of that kind. Code and data of contracts expire; when they do is the
content of another entry, whose key is made from the hash of theirs.

* `LedgerEntryType`, `ContractDataDurability` — the kinds of objects.
* `LedgerKey` — the keys; `entryType` is the kind of the object.
* `LedgerKey.ttlKey` — the key of the entry that says when an object expires.
-/

import LedgerWire.Asset.Pool
import LedgerWire.Claim.BalanceId
import LedgerWire.ConfigSetting.Basic
import LedgerWire.Contract.Value

namespace LedgerWire

open Schema

/-! ### Kinds -/

inductive LedgerEntryType where
  | account
  | trustline
  | offer
  | data
  | claimableBalance
  | liquidityPool
  | contractData
  | contractCode
  | configSetting
  | ttl
  deriving DecidableEq, Repr

namespace LedgerEntryType

def table : List (String × Int32 × LedgerEntryType) :=
  [ ("Account", 0, .account), ("Trustline", 1, .trustline), ("Offer", 2, .offer),
    ("Data", 3, .data), ("ClaimableBalance", 4, .claimableBalance),
    ("LiquidityPool", 5, .liquidityPool), ("ContractData", 6, .contractData),
    ("ContractCode", 7, .contractCode), ("ConfigSetting", 8, .configSetting), ("Ttl", 9, .ttl) ]

def enumeration : Enumeration LedgerEntryType := .ofTable "LedgerEntryType" table

def schema : Schema LedgerEntryType := enumeration.schema

end LedgerEntryType

/-- Whether data of a contract may be dropped when it expires, or is archived instead. -/
inductive ContractDataDurability where
  | temporary
  | persistent
  deriving DecidableEq, Repr

namespace ContractDataDurability

def table : List (String × Int32 × ContractDataDurability) :=
  [("Temporary", 0, .temporary), ("Persistent", 1, .persistent)]

def enumeration : Enumeration ContractDataDurability := .ofTable "ContractDataDurability" table

def schema : Schema ContractDataDurability := enumeration.schema

end ContractDataDurability

/-! ### Names of data entries -/

/-- A data entry's name has at least one byte, and at most 64. -/
def checkDataName (name : String) : Except WireError Unit :=
  if name.isEmpty ∨ Limits.dataName.toNat < name.utf8ByteSize then
    .error (.validation "data_name"
      (.bytesOutside name.utf8ByteSize 1 Limits.dataName.toNat))
  else .ok ()

/-- A name of that length on the wire, and as a text in JSON. -/
def dataNameSchema : Schema String := .text Limits.dataName "DataName" "data_name"

/-! ### Keys -/

inductive LedgerKey where
  | account (accountId : AccountId)
  | trustline (accountId : AccountId) (asset : TrustLineAsset)
  | offer (sellerId : AccountId) (offerId : Int64)
  | data (accountId : AccountId) (dataName : String)
  | claimableBalance (balanceId : ClaimableBalanceId)
  | liquidityPool (poolId : PoolId)
  | contractData (contract : ScAddress) (key : ScVal) (durability : ContractDataDurability)
  | contractCode (hash : Hash)
  | configSetting (id : ConfigSetting.Id)
  | ttl (keyHash : Hash)
  deriving DecidableEq, Repr

namespace LedgerKey

def entryType : LedgerKey → LedgerEntryType
  | .account _ => .account
  | .trustline _ _ => .trustline
  | .offer _ _ => .offer
  | .data _ _ => .data
  | .claimableBalance _ => .claimableBalance
  | .liquidityPool _ => .liquidityPool
  | .contractData _ _ _ => .contractData
  | .contractCode _ => .contractCode
  | .configSetting _ => .configSetting
  | .ttl _ => .ttl

/-- The key of a data entry whose name obeys its rule. -/
def ofDataName (accountId : AccountId) (name : String) : Except WireError LedgerKey := do
  checkDataName name
  return .data accountId name

/-- The key of the entry that a contract's instance is kept in. -/
def ofInstance (contract : ScAddress) : LedgerKey :=
  .contractData contract .ledgerKeyContractInstance .persistent

/-- On the wire and in JSON. The name of a data entry is judged before it is written. -/
def schema : Schema LedgerKey :=
  .union "LedgerEntryType"
    [ .of 0 "account" (field "account_id" AccountId.schema).inArm .account fun
        | .account accountId => some accountId
        | _ => none,
      .of 1 "trustline"
        (field "account_id" AccountId.schema >> field "asset" TrustLineAsset.schema).inArm
        (fun (accountId, asset) => .trustline accountId asset) fun
        | .trustline accountId asset => some (accountId, asset)
        | _ => none,
      .of 2 "offer"
        (field "seller_id" AccountId.schema >> field "offer_id" .i64).inArm
        (fun (sellerId, offerId) => .offer sellerId offerId) fun
        | .offer sellerId offerId => some (sellerId, offerId)
        | _ => none,
      .of 3 "data"
        ((field "account_id" AccountId.schema >> field "data_name" dataNameSchema).inArm.guarded
          fun (_, name) => checkDataName name)
        (fun (accountId, name) => .data accountId name) fun
        | .data accountId name => some (accountId, name)
        | _ => none,
      .of 4 "claimable_balance"
        (field "balance_id" ClaimableBalanceId.schema).inArm .claimableBalance fun
        | .claimableBalance balanceId => some balanceId
        | _ => none,
      .of 5 "liquidity_pool"
        (field "liquidity_pool_id" PoolId.schema).inArm .liquidityPool fun
        | .liquidityPool poolId => some poolId
        | _ => none,
      .of 6 "contract_data"
        (field "contract" ScAddress.schema >> field "key" ScVal.schema
          >> field "durability" ContractDataDurability.schema).inArm
        (fun (contract, key, durability) => .contractData contract key durability) fun
        | .contractData contract key durability => some (contract, key, durability)
        | _ => none,
      .of 7 "contract_code" (field "hash" Hash.schema).inArm .contractCode fun
        | .contractCode hash => some hash
        | _ => none,
      .of 8 "config_setting"
        (field "config_setting_id" ConfigSetting.Id.schema).inArm .configSetting fun
        | .configSetting id => some id
        | _ => none,
      .of 9 "ttl" (field "key_hash" Hash.schema).inArm .ttl fun
        | .ttl keyHash => some keyHash
        | _ => none ]

/-! ### Expiry -/

/-- What the key of an object's expiry holds the hash of: the wire form of the object's own key.
Only code and data of contracts expire. -/
def ttlPreimage (k : LedgerKey) : Except WireError Bytes :=
  match k with
  | .contractData _ _ _ | .contractCode _ => schema.wire.encode k
  | _ => .error (.validation "ttl_key" (.noTtl (LedgerEntryType.enumeration.name k.entryType)))

/-- The key of the entry that says when the object expires. -/
def ttlKey (k : LedgerKey) : Except WireError LedgerKey :=
  k.ttlPreimage.map fun bytes => .ttl (sha256 bytes)

end LedgerKey

end LedgerWire
