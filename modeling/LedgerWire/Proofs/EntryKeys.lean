/-
# Entries and their keys

The key of an entry is put together from fields of the entry, and nothing is checked on the way. It
need not be: whatever a key may not hold, an entry may not hold either, so the key of an entry that
is written can be written too. Key and entry have the same kind, each behind the number of the kind
in a table of its own, and the tables agree.

* `Codec.first_word_of_get_union` — the number in front of a value of a union.
* `LedgerKey.take_word_of_encode`, `LedgerEntry.take_word_of_encode` — for keys and entries that is
  the number of the kind.
* `LedgerKey.Names`, `LedgerKey.names_iff` — the objects that a key names by its fields.
* `LedgerEntryData.writable_ledgerKey` — the key of an object that is written can be written.
* `LedgerKey.ttlKey_eq_ok_iff` — what expires, and the key of its expiry.
* `entry_key_agree` — all of it, of every entry that has a wire form.
-/

import LedgerWire.Proofs.Types.Entries
import LedgerWire.Proofs.Types.Writable
import LedgerWire.Proofs.UniqueNames
import LedgerWire.Proofs.Wire.Depth
import LedgerWire.Proofs.Wire.Reached
import LedgerWire.Proofs.Wire.Whole

namespace LedgerWire

open Attempt (Gives)
open Bytes (word)

/-! ### Parts of what is written and read -/

namespace Codec

variable {α : Type} {c : Codec α} {a : α} {arms : List (Arm α)} {kind : String} {r r' : Reader}

/-- What was written once can be written anywhere: what a step does is always the same. -/
theorem Writable.of_gives (hsteady : (c.put a).Steady) (hgives : (c.put a).Gives ()) :
    c.Writable a := by
  obtain ⟨result, out, happends, -⟩ := hsteady
  obtain ⟨w, w', hput⟩ := hgives
  rw [happends w] at hput
  obtain rfl : result = .ok () := congrArg Prod.fst hput
  exact ⟨out, happends⟩

/-- **A value of a union is read behind its number.** -/
theorem first_word_of_get_union (number : α → Int32)
    (hnumber : ∀ arm ∈ arms, ∀ payload, number (arm.inject payload) = arm.tag)
    (h : (union kind arms).get r = (.ok a, r')) :
    ∃ rest, r.unread = word (number a).toUInt32 ++ rest := by
  obtain ⟨tag, t, htag, -⟩ := Attempt.bind_ok_iff.1 h
  have hi32 : Get.i32.Framed r.room := (Get.aligned_u32.map UInt32.toInt32).toFramed
  obtain ⟨front, rest, hunread, -, hreads, -⟩ := hi32.split rfl htag
  obtain rfl := reads_i32_iff.1 hreads
  cases hfound : arms.find? (·.tag = tag) with
  | none =>
      rw [get_union_of_unknown htag hfound] at h
      cases h
  | some arm =>
      rw [get_union_of_found htag hfound] at h
      obtain ⟨payload, t', -, hpure⟩ := Attempt.bind_ok_iff.1 h
      cases hpure
      obtain ⟨harm, rfl⟩ := mem_tag_of_find? hfound
      rw [hnumber arm harm]
      exact ⟨rest, hunread⟩

/-- Bytes that were written for a value and can be read have a value that fits the limit: they would
be refused otherwise. -/
theorem Regular.nesting_le_of_encode_of_decode {f : α → Nat} {a' : α} {p : Bytes} {limit : Nat}
    (h : ∀ k, Regular k c f) (hp : c.encode a = .ok p) (hdecode : c.decode p limit = .ok a') :
    f a ≤ limit := by
  by_contra hdeep
  have hrefused : (c.get (.start p limit)).1 = .error (.depthLimitExceeded limit) :=
    get_of_encode_deep h (Nat.lt_of_not_le hdeep) hp
  have hget : c.get (.start p limit)
      = (.error (.depthLimitExceeded limit), (c.get (.start p limit)).2) := Prod.ext hrefused rfl
  rw [decode_of_get_error hget] at hdecode
  cases hdecode

end Codec

/-! ### Kinds -/

/-- The number of a kind on the wire. -/
def LedgerEntryType.word (t : LedgerEntryType) : Bytes :=
  Bytes.word (enumeration.number t).toUInt32

/-- The word of an entry's kind is the first four bytes of whatever it starts. -/
theorem LedgerEntryType.take_word_append (t : LedgerEntryType) (rest : Bytes) :
    (t.word ++ rest).take 4 = t.word :=
  List.take_left' (Bytes.length_word _)

/-- A key that is read starts with the word of its kind. -/
theorem LedgerKey.first_word_of_get {k : LedgerKey} {r r' : Reader}
    (h : schema.wire.get r = (.ok k, r')) : ∃ rest, r.unread = k.entryType.word ++ rest := by
  refine Codec.first_word_of_get_union
    (fun k : LedgerKey => LedgerEntryType.enumeration.number k.entryType) ?_ h
  simp only [List.map_cons, List.map_nil, List.forall_mem_cons]
  refine ⟨?_, ?_, ?_, ?_, ?_, ?_, ?_, ?_, ?_, ?_, nofun⟩
  all_goals exact fun _ => rfl

/-- Entry data that is read starts with the word of its kind. -/
theorem LedgerEntryData.first_word_of_get {d : LedgerEntryData} {r r' : Reader}
    (h : schema.wire.get r = (.ok d, r')) : ∃ rest, r.unread = d.entryType.word ++ rest := by
  refine Codec.first_word_of_get_union
    (fun d : LedgerEntryData => LedgerEntryType.enumeration.number d.entryType) ?_ h
  simp only [List.map_cons, List.map_nil, List.forall_mem_cons]
  refine ⟨?_, ?_, ?_, ?_, ?_, ?_, ?_, ?_, ?_, ?_, nofun⟩
  all_goals exact fun _ => rfl

/-- In an entry the number of the ledger stands in front of the object. -/
theorem LedgerEntry.second_word_of_get {e : LedgerEntry} {r r' : Reader}
    (h : schema.wire.get r = (.ok e, r')) :
    ∃ ledger rest, r.unread = Bytes.word ledger ++ (e.data.entryType.word ++ rest) := by
  obtain ⟨⟨ledger, d, ext⟩, hfields, rfl⟩ := Codec.get_imap_eq_ok_iff.1 h
  obtain ⟨t, hledger, hrest⟩ := Codec.get_both_eq_ok_iff.1 hfields
  obtain ⟨t', hdata, -⟩ := Codec.get_both_eq_ok_iff.1 hrest
  have hu32 : Get.u32.Framed r.room := Get.aligned_u32.toFramed
  obtain ⟨front, rest, hunread, rfl, hreads, -⟩ := hu32.split rfl hledger
  obtain rfl := Get.Reads.u32_iff.1 hreads
  obtain ⟨rest', hrest'⟩ := LedgerEntryData.first_word_of_get hdata
  obtain rfl : rest = d.entryType.word ++ rest' := hrest'
  exact ⟨ledger, rest', hunread⟩

/-- **The wire form of a key starts with the number of its kind.** -/
theorem LedgerKey.take_word_of_encode {k : LedgerKey} {p : Bytes}
    (h : schema.wire.encode k = .ok p) : p.take 4 = k.entryType.word := by
  have hget := (regular k.nesting).get_of_encode (Nat.le_refl _) h
  obtain ⟨rest, hunread⟩ := first_word_of_get hget
  obtain rfl : p = k.entryType.word ++ rest := hunread
  exact LedgerEntryType.take_word_append _ _

/-- **In the wire form of an entry the number of its kind is the second word.** -/
theorem LedgerEntry.take_word_of_encode {e : LedgerEntry} {p : Bytes}
    (h : schema.wire.encode e = .ok p) : (p.drop 4).take 4 = e.data.entryType.word := by
  have hget := (regular e.nesting).get_of_encode (Nat.le_refl _) h
  obtain ⟨ledger, rest, hunread⟩ := second_word_of_get hget
  obtain rfl : p = word ledger ++ (e.data.entryType.word ++ rest) := hunread
  rw [List.drop_left' (Bytes.length_word _)]
  exact LedgerEntryType.take_word_append _ _

/-! ### The key of an object -/

/-- A trust line that was written holds an asset that can be written alone. -/
theorem TrustLineEntry.writable_asset {e : TrustLineEntry} (h : (schema.wire.put e).Gives ()) :
    TrustLineAsset.schema.wire.Writable e.asset := by
  obtain ⟨_, -, hrest⟩ := h.bind
  obtain ⟨_, hasset, -⟩ := hrest.bind
  exact .of_gives (TrustLineAsset.flat.steady_put e.asset) hasset

/-- A data entry that was written has a name its key accepts. -/
theorem DataEntry.checkDataName_of_gives {e : DataEntry} (h : (schema.wire.put e).Gives ()) :
    checkDataName e.dataName = .ok () := by
  obtain ⟨_, hrules, -⟩ := h.bind
  exact (seq_eq_ok_iff.1 hrules.eq_ok_of_ofExcept).1

/-- A contract data entry that was written holds a key that can be written alone. -/
theorem ContractDataEntry.writable_key {e : ContractDataEntry} (h : (schema.wire.put e).Gives ()) :
    ScVal.schema.wire.Writable e.key := by
  obtain ⟨_, -, hbehind⟩ := h.bind
  obtain ⟨_, -, hrest⟩ := hbehind.bind
  obtain ⟨_, hvalue, -⟩ := hrest.bind
  exact .of_gives (Codec.steady_put ScVal.regular e.key) hvalue

/-- A key names an object of its kind that has the fields of the key. -/
inductive LedgerKey.Names : LedgerKey → LedgerEntryData → Prop
  | account (e : AccountEntry) : Names (.account e.accountId) (.account e)
  | trustline (e : TrustLineEntry) : Names (.trustline e.accountId e.asset) (.trustline e)
  | offer (e : OfferEntry) : Names (.offer e.sellerId e.offerId) (.offer e)
  | data (e : DataEntry) : Names (.data e.accountId e.dataName) (.data e)
  | claimableBalance (e : ClaimableBalanceEntry) :
      Names (.claimableBalance e.balanceId) (.claimableBalance e)
  | liquidityPool (e : LiquidityPoolEntry) : Names (.liquidityPool e.poolId) (.liquidityPool e)
  | contractData (e : ContractDataEntry) :
      Names (.contractData e.contract e.key e.durability) (.contractData e)
  | contractCode (e : ContractCodeEntry) : Names (.contractCode e.hash) (.contractCode e)
  | configSetting (s : ConfigSetting) : Names (.configSetting s.id) (.configSetting s)
  | ttl (e : TtlEntry) : Names (.ttl e.keyHash) (.ttl e)

/-- **An object is named by one key**, the one that is put together from its fields. -/
theorem LedgerKey.names_iff {k : LedgerKey} {d : LedgerEntryData} :
    k.Names d ↔ k = d.ledgerKey := by
  constructor
  · intro h
    cases h <;> rfl
  · rintro rfl
    cases d <;> constructor

namespace LedgerEntryData

variable {d : LedgerEntryData}

/-- The key of an entry is of the entry's kind. -/
theorem entryType_ledgerKey (d : LedgerEntryData) : d.ledgerKey.entryType = d.entryType := by
  cases d <;> rfl

/-- A key is nested no deeper than its object. -/
theorem nesting_ledgerKey_le (d : LedgerEntryData) : d.ledgerKey.nesting ≤ d.nesting := by
  cases d with
  | contractData e => exact Nat.le_max_left _ _
  | _ => exact Nat.zero_le _

/-- **The key of an object that is written can be written.** A trust line's asset, a name and a
contract's key are the fields that not every value may be in, and they are written with the
object. -/
theorem writable_ledgerKey (h : (schema.wire.put d).Gives ()) :
    LedgerKey.schema.wire.Writable d.ledgerKey := by
  cases d with
  | account e => exact .behind rfl e.accountId.writable
  | trustline e =>
      have hput : (do Put.i32 1; TrustLineEntry.schema.wire.put e).Gives () := h
      obtain ⟨_, -, hentry⟩ := hput.bind
      have hkey : (AccountId.schema.wire.both TrustLineAsset.schema.wire).Writable
          (e.accountId, e.asset) :=
        .both e.accountId.writable (TrustLineEntry.writable_asset hentry)
      exact .behind rfl hkey
  | offer e =>
      have hkey : (AccountId.schema.wire.both Codec.i64).Writable (e.sellerId, e.offerId) :=
        .both e.sellerId.writable (Codec.writable_i64 _)
      exact .behind rfl hkey
  | data e =>
      -- Writing the entry checks the name, so the check that the key makes passes.
      have hput : (do Put.i32 3; DataEntry.schema.wire.put e).Gives () := h
      obtain ⟨_, -, hentry⟩ := hput.bind
      have hname := DataEntry.checkDataName_of_gives hentry
      have hpair : (AccountId.schema.wire.both dataNameSchema.wire).Writable
          (e.accountId, e.dataName) :=
        .both e.accountId.writable (Codec.writable_text (size_le_of_checkDataName hname))
      exact .behind rfl (.guarded hname hpair)
  | claimableBalance e => exact .behind rfl e.balanceId.writable
  | liquidityPool e => exact .behind rfl e.poolId.writable
  | contractData e =>
      have hput : (do Put.i32 6; ContractDataEntry.schema.wire.put e).Gives () := h
      obtain ⟨_, -, hentry⟩ := hput.bind
      -- The key of the data is a value of its own, written inside the entry.
      have hvalue := ContractDataEntry.writable_key hentry
      have hkey : (ScAddress.schema.wire.both (ScVal.schema.wire.both
          ContractDataDurability.schema.wire)).Writable (e.contract, e.key, e.durability) :=
        .both e.contract.writable (.both hvalue (Enumeration.writable _ _))
      exact .behind rfl hkey
  | contractCode e => exact .behind rfl e.hash.writable
  | configSetting e => exact .behind rfl (Enumeration.writable _ _)
  | ttl e => exact .behind rfl e.keyHash.writable

end LedgerEntryData

/-! ### Expiry -/

/-- **Data and code of contracts expire, and nothing else does**; the key of the expiry holds the
hash of the key's wire form. -/
theorem LedgerKey.ttlKey_eq_ok_iff {k t : LedgerKey} :
    k.ttlKey = .ok t ↔ (k.entryType = .contractData ∨ k.entryType = .contractCode)
      ∧ ∃ bytes, schema.wire.encode k = .ok bytes ∧ t = .ttl (sha256 bytes) := by
  have hmap {x : Except WireError Bytes} : x.map (fun bytes => ttl (sha256 bytes)) = .ok t
      ↔ ∃ bytes, x = .ok bytes ∧ t = .ttl (sha256 bytes) := by
    constructor
    · intro h
      obtain ⟨bytes, rfl, rfl⟩ := exists_of_map_eq_ok h
      exact ⟨bytes, rfl, rfl⟩
    · rintro ⟨bytes, rfl, rfl⟩
      rfl
  unfold ttlKey
  rw [hmap]
  cases k with
  | contractData _ _ _ => simp [ttlPreimage, entryType]
  | contractCode _ => simp [ttlPreimage, entryType]
  | _ => simp [ttlPreimage, entryType]

/-! ### Every entry -/

/-- **Entry and key agree.** The key of an entry names it by the entry's own fields, as no other key
does. The key of an entry that is written has the entry's kind and a wire form, which starts with
the number of the kind, as the entry has it behind the number of its ledger. If the entry is read
again, so is the key. The key names an expiry exactly if the entry is data or code of a contract,
and then it is the hash of the key's wire form that the expiry is found by. -/
theorem entry_key_agree {e : LedgerEntry} {b : Bytes}
    (h : LedgerEntry.schema.wire.encode e = .ok b) :
    (∀ k : LedgerKey, k.Names e.data ↔ k = e.ledgerKey)
    ∧ e.ledgerKey.entryType = e.data.entryType
    ∧ ∃ kb, LedgerKey.schema.wire.encode e.ledgerKey = .ok kb
      ∧ kb.take 4 = (b.drop 4).take 4 ∧ kb.take 4 = e.data.entryType.word
      ∧ ((∃ e', LedgerEntry.schema.wire.decode b = .ok e') →
        LedgerKey.schema.wire.decode kb = .ok e.ledgerKey)
      ∧ ((∃ t, e.ledgerKey.ttlKey = .ok t) ↔
        e.data.entryType = .contractData ∨ e.data.entryType = .contractCode)
      ∧ ∀ t, e.ledgerKey.ttlKey = .ok t → t = .ttl (sha256 kb) := by
  have hkind : e.ledgerKey.entryType = e.data.entryType := e.data.entryType_ledgerKey
  -- The entry is written in three parts, and its data are the second.
  obtain ⟨_, -, hparts⟩ := (Codec.gives_of_encode h).bind
  obtain ⟨_, hdata, -⟩ := hparts.bind
  obtain ⟨kb, hkey⟩ := e.data.writable_ledgerKey hdata
  have hkb : LedgerKey.schema.wire.encode e.ledgerKey = .ok kb := hkey.encode_eq
  have hfirst : kb.take 4 = e.data.entryType.word := by
    rw [LedgerKey.take_word_of_encode hkb, hkind]
  refine ⟨fun k => LedgerKey.names_iff, hkind, kb, hkb, ?_, hfirst, ?_, ?_, ?_⟩
  · rw [hfirst, LedgerEntry.take_word_of_encode h]
  · -- What is read need not be the entry for this: that something is read bounds the nesting.
    rintro ⟨e', he'⟩
    have hle : e.nesting ≤ Reader.defaultLimit :=
      Codec.Regular.nesting_le_of_encode_of_decode LedgerEntry.regular h he'
    have hkeyLe : e.ledgerKey.nesting ≤ Reader.defaultLimit :=
      Nat.le_trans e.data.nesting_ledgerKey_le hle
    exact (LedgerKey.regular Reader.defaultLimit).decode_of_encode (Nat.le_refl _) hkeyLe hkb
  · simp only [LedgerKey.ttlKey_eq_ok_iff, hkind]
    constructor
    · rintro ⟨t, hexpires, -⟩
      exact hexpires
    · intro hexpires
      exact ⟨_, hexpires, kb, hkb, rfl⟩
  · intro t ht
    obtain ⟨-, bytes, hbytes, rfl⟩ := LedgerKey.ttlKey_eq_ok_iff.1 ht
    rw [hkb] at hbytes
    cases hbytes
    rfl

/-- A value that a contract keeps under a vector. -/
def vectorEntry : LedgerEntry :=
  .ofData 7 (.contractData ⟨.contract ⟨⟨Vector.replicate 32 7⟩⟩, .vec (some [.u32 7, .void]),
    .persistent, .bool true⟩)

theorem entry_key_agree_vectorEntry :
    ∃ b, LedgerEntry.schema.wire.encode vectorEntry = .ok b
      ∧ ∃ kb, LedgerKey.schema.wire.encode vectorEntry.ledgerKey = .ok kb
        ∧ kb.take 4 = [0, 0, 0, 6] ∧ (b.drop 4).take 4 = [0, 0, 0, 6]
        ∧ LedgerKey.schema.wire.decode kb = .ok vectorEntry.ledgerKey
        ∧ vectorEntry.ledgerKey.ttlKey = .ok (.ttl (sha256 kb)) := by
  have hwritten : (LedgerEntry.schema.wire.encode vectorEntry).isOk = true := by decide +kernel
  cases hb : LedgerEntry.schema.wire.encode vectorEntry with
  | error e =>
      rw [hb] at hwritten
      cases hwritten
  | ok b =>
      obtain ⟨-, -, kb, hkb, hsame, hword, hread, hexpires, hhash⟩ := entry_key_agree hb
      have hsix : vectorEntry.data.entryType.word = [0, 0, 0, 6] := by decide +kernel
      have hdecode : LedgerEntry.schema.wire.decode b = .ok vectorEntry :=
        (LedgerEntry.regular Reader.defaultLimit).decode_of_encode (Nat.le_refl _) (by decide) hb
      obtain ⟨t, ht⟩ := hexpires.2 (.inl rfl)
      obtain rfl := hhash t ht
      exact ⟨b, rfl, kb, hkb, hword.trans hsix, hsame.symm.trans (hword.trans hsix),
        hread ⟨_, hdecode⟩, ht⟩

end LedgerWire
