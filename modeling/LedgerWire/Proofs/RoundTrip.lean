/-
# What is written is read

Operations and the data of the ledger survive the way through their wire form, whatever they hold,
as long as they are not nested deeper than a reader allows.

* `operation_round_trip` — every operation with every payload.
* `ledger_round_trip` — every ledger entry, every ledger key and the resources of every contract
  call; an absent extension takes one word and nothing of what follows it.
-/

import LedgerWire.Proofs.Types.Operations
import LedgerWire.Proofs.Wire.Whole

namespace LedgerWire

/-- What is not refused gives a value. -/
private theorem exists_of_isOk {ε α : Type} {r : Except ε α} (h : r.isOk = true) :
    ∃ a, r = .ok a := by
  cases r with
  | error e => cases h
  | ok a => exact ⟨a, rfl⟩

/-! ### Operations -/

/-- **An operation that is written is read again.** -/
theorem operation_round_trip {op : Operation} {bytes : Bytes}
    (hbytes : Operation.schema.wire.encode op = .ok bytes)
    (hnesting : op.nesting ≤ Reader.defaultLimit) :
    Operation.schema.wire.decode bytes = .ok op :=
  (Operation.regular Reader.defaultLimit).decode_of_encode (Nat.le_refl _) hnesting hbytes

/-- A call that passes a vector on, with the approval that it needs. -/
def approvedCall : Operation :=
  let call : InvokeContractArgs :=
    ⟨.contract ⟨⟨Vector.replicate 32 7⟩⟩, "mint", [.vec (some [.u32 7, .void])]⟩
  ⟨none, .invokeHostFunction ⟨.invokeContract call, [⟨.sourceAccount, .mk (.contractFn call) []⟩]⟩⟩

theorem operation_round_trip_approvedCall : approvedCall.nesting = 3 ∧
    ∃ bytes, Operation.schema.wire.encode approvedCall = .ok bytes
      ∧ Operation.schema.wire.decode bytes = .ok approvedCall := by
  have hwritten : (Operation.schema.wire.encode approvedCall).isOk = true := by decide +kernel
  obtain ⟨bytes, hbytes⟩ := exists_of_isOk hwritten
  exact ⟨rfl, bytes, hbytes, operation_round_trip hbytes (by decide)⟩

/-! ### The data of the ledger -/

section Extension

variable {α : Type} {c : Codec α} {version : Int32} {kind : String}

/-- An absent extension is the zero word and no more. -/
theorem encode_absent_extension : (c.extension version kind).encode none = .ok (Bytes.word 0) := rfl

/-- An absent extension is read from its one word, whatever follows it. -/
theorem reads_absent_extension {room : Nat} :
    (c.extension version kind).get.Reads room (Bytes.word 0) none := by
  intro depth limit rest hroom
  have hword : Get.i32.Reads room (Bytes.word 0) 0 := Codec.reads_i32_iff.2 rfl
  exact Attempt.bind_ok_iff.2 ⟨0, ⟨rest, depth, limit⟩, hword depth limit rest hroom, rfl⟩

end Extension

/-- **An entry, a key or the resources of a call that are written are read again.** Where a link of
a chain of extensions is absent, it is the word 0 alone, and reading it leaves all that follows. -/
theorem ledger_round_trip :
    (∀ {entry : LedgerEntry} {bytes}, LedgerEntry.schema.wire.encode entry = .ok bytes →
      entry.nesting ≤ Reader.defaultLimit → LedgerEntry.schema.wire.decode bytes = .ok entry)
    ∧ (∀ {key : LedgerKey} {bytes}, LedgerKey.schema.wire.encode key = .ok bytes →
      key.nesting ≤ Reader.defaultLimit → LedgerKey.schema.wire.decode bytes = .ok key)
    ∧ (∀ {data : SorobanTransactionData} {bytes},
      SorobanTransactionData.schema.wire.encode data = .ok bytes →
      data.nesting ≤ Reader.defaultLimit →
      SorobanTransactionData.schema.wire.decode bytes = .ok data)
    ∧ ∀ {α : Type} (c : Codec α) (version : Int32) (kind : String),
      (c.extension version kind).encode none = .ok (Bytes.word 0)
        ∧ ∀ depth limit rest, (c.extension version kind).get ⟨Bytes.word 0 ++ rest, depth, limit⟩
          = (.ok none, ⟨rest, depth, limit⟩) := by
  have hk := Nat.le_refl Reader.defaultLimit
  refine ⟨fun hbytes hnesting => ?_, fun hbytes hnesting => ?_, fun hbytes hnesting => ?_,
    fun c version kind => ⟨encode_absent_extension, fun depth limit rest => ?_⟩⟩
  · exact (LedgerEntry.regular Reader.defaultLimit).decode_of_encode hk hnesting hbytes
  · exact (LedgerKey.regular Reader.defaultLimit).decode_of_encode hk hnesting hbytes
  · exact (SorobanTransactionData.regular Reader.defaultLimit).decode_of_encode hk hnesting hbytes
  · exact reads_absent_extension depth limit rest rfl

/-- An account with two of its three extensions, whose reserve somebody else pays for. -/
def sponsoredAccount : LedgerEntry :=
  let owner : AccountId := ⟨Vector.replicate 32 1⟩
  let sponsor : AccountId := ⟨Vector.replicate 32 2⟩
  let second : AccountEntryExtensionV2 := ⟨1, 0, [some sponsor, none], none⟩
  let account : AccountEntry := ⟨owner, ⟨100⟩, 5, 1, none, 0, "example.org", ⟨1, 0, 0, 0⟩, [],
    some ⟨⟨⟨3⟩, ⟨4⟩⟩, some second⟩⟩
  ⟨9, .account account, some ⟨some sponsor⟩⟩

/-- A place where a contract keeps a value, named by a vector. -/
def contractSlot : LedgerKey :=
  .contractData (.contract ⟨⟨Vector.replicate 32 7⟩⟩) (.vec (some [.u32 7, .void])) .persistent

/-- The declaration of a transaction that writes to that place. -/
def slotResources : SorobanTransactionData := ⟨none, ⟨⟨[], [contractSlot]⟩, 1000, 0, 64⟩, ⟨20⟩⟩

theorem ledger_round_trip_sponsoredAccount_contractSlot :
    (∃ bytes, LedgerEntry.schema.wire.encode sponsoredAccount = .ok bytes
      ∧ LedgerEntry.schema.wire.decode bytes = .ok sponsoredAccount)
    ∧ (∃ bytes, LedgerKey.schema.wire.encode contractSlot = .ok bytes
      ∧ LedgerKey.schema.wire.decode bytes = .ok contractSlot)
    ∧ (∃ bytes, SorobanTransactionData.schema.wire.encode slotResources = .ok bytes
      ∧ SorobanTransactionData.schema.wire.decode bytes = .ok slotResources)
    ∧ (AccountEntryExtensionV3.schema.wire.extension 3 "AccountEntryExtensionV2.ext").get
      ⟨[0, 0, 0, 0, 0, 0, 0, 1], 0, 0⟩ = (.ok none, ⟨[0, 0, 0, 1], 0, 0⟩) := by
  obtain ⟨hentry, hkey, hdata, habsent⟩ := ledger_round_trip
  have hwrittenEntry : (LedgerEntry.schema.wire.encode sponsoredAccount).isOk = true := by
    decide +kernel
  have hwrittenKey : (LedgerKey.schema.wire.encode contractSlot).isOk = true := by decide +kernel
  have hwrittenData : (SorobanTransactionData.schema.wire.encode slotResources).isOk = true := by
    decide +kernel
  obtain ⟨entryBytes, hentryBytes⟩ := exists_of_isOk hwrittenEntry
  obtain ⟨keyBytes, hkeyBytes⟩ := exists_of_isOk hwrittenKey
  obtain ⟨dataBytes, hdataBytes⟩ := exists_of_isOk hwrittenData
  exact ⟨⟨entryBytes, hentryBytes, hentry hentryBytes (by decide)⟩,
    ⟨keyBytes, hkeyBytes, hkey hkeyBytes (by decide)⟩,
    ⟨dataBytes, hdataBytes, hdata hdataBytes (by decide)⟩, (habsent _ _ _).2 0 0 [0, 0, 0, 1]⟩

end LedgerWire
