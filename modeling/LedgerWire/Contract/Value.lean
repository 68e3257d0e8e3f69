/-
# Contract values

The one type of value that contracts exchange with their host: arguments, storage keys and storage
values. It has 22 arms and contains itself through vectors, maps and the storage of contract
instances. A vector or a map may be absent, which differs from being empty.

* `ScVal`, `ScMapEntry`, `ScContractInstance` — the types, which contain each other.
* `ScVal.nesting` — the number of values on the longest way from the whole to a part.
* `ScVal.beq_iff_eq` — structural comparison decides equality.
* `ScVal.layout` — one level of a value on the wire and in JSON.
-/

import LedgerWire.Address
import LedgerWire.Contract.Error
import LedgerWire.Contract.Symbol
import LedgerWire.Contract.Wide

namespace LedgerWire

/-- The code behind a contract: uploaded, or built in for an asset. -/
inductive ContractExecutable where
  | wasm (hash : Hash)
  | stellarAsset
  deriving DecidableEq, Repr

def ContractExecutable.schema : Schema ContractExecutable :=
  .union "ContractExecutableType"
    [ .of 0 "wasm" Hash.schema .wasm fun
        | .wasm hash => some hash
        | _ => none,
      .bare 1 "stellar_asset" .stellarAsset (· matches .stellarAsset) ]

mutual

inductive ScVal where
  | bool (b : Bool)
  | void
  | error (e : ScError)
  | u32 (n : UInt32)
  | i32 (n : Int32)
  | u64 (n : UInt64)
  | i64 (n : Int64)
  | timepoint (seconds : UInt64)
  | duration (seconds : UInt64)
  | u128 (parts : UInt128Parts)
  | i128 (parts : Int128Parts)
  | u256 (parts : UInt256Parts)
  | i256 (parts : Int256Parts)
  | bytes (b : Bytes)
  | string (b : Bytes)
  | symbol (s : String)
  | vec (items : Option (List ScVal))
  | map (entries : Option (List ScMapEntry))
  | address (a : ScAddress)
  | contractInstance (i : ScContractInstance)
  | ledgerKeyContractInstance
  | ledgerKeyNonce (nonce : Int64)
  deriving Repr

structure ScMapEntry where
  key : ScVal
  val : ScVal
  deriving Repr

/-- A contract instance: its code and its storage. -/
structure ScContractInstance where
  executable : ContractExecutable
  storage : Option (List ScMapEntry)
  deriving Repr

end

namespace ScVal

/-! ### Nesting -/

mutual

/-- The number of values on the longest way from the whole to a part. -/
def nesting : ScVal → Nat
  | .vec (some items) => nestingItems items + 1
  | .map (some entries) => nestingEntries entries + 1
  | .contractInstance i => nestingInstance i + 1
  | _ => 1

def nestingItems : List ScVal → Nat
  | [] => 0
  | v :: rest => max (nesting v) (nestingItems rest)

def nestingEntry : ScMapEntry → Nat
  | ⟨key, val⟩ => max (nesting key) (nesting val)

def nestingEntries : List ScMapEntry → Nat
  | [] => 0
  | e :: rest => max (nestingEntry e) (nestingEntries rest)

def nestingInstance : ScContractInstance → Nat
  | ⟨_, some entries⟩ => nestingEntries entries
  | ⟨_, none⟩ => 0

end

/-! ### Equality -/

mutual

def beq : ScVal → ScVal → Bool
  | .bool a, .bool b => a == b
  | .void, .void => true
  | .error a, .error b => a == b
  | .u32 a, .u32 b => a == b
  | .i32 a, .i32 b => a == b
  | .u64 a, .u64 b => a == b
  | .i64 a, .i64 b => a == b
  | .timepoint a, .timepoint b => a == b
  | .duration a, .duration b => a == b
  | .u128 a, .u128 b => a == b
  | .i128 a, .i128 b => a == b
  | .u256 a, .u256 b => a == b
  | .i256 a, .i256 b => a == b
  | .bytes a, .bytes b => a == b
  | .string a, .string b => a == b
  | .symbol a, .symbol b => a == b
  | .vec none, .vec none => true
  | .vec (some a), .vec (some b) => beqItems a b
  | .map none, .map none => true
  | .map (some a), .map (some b) => beqEntries a b
  | .address a, .address b => a == b
  | .contractInstance a, .contractInstance b => beqInstance a b
  | .ledgerKeyContractInstance, .ledgerKeyContractInstance => true
  | .ledgerKeyNonce a, .ledgerKeyNonce b => a == b
  | _, _ => false

def beqItems : List ScVal → List ScVal → Bool
  | [], [] => true
  | a :: as, b :: bs => beq a b && beqItems as bs
  | _, _ => false

def beqEntry : ScMapEntry → ScMapEntry → Bool
  | ⟨k, v⟩, ⟨k', v'⟩ => beq k k' && beq v v'

def beqEntries : List ScMapEntry → List ScMapEntry → Bool
  | [], [] => true
  | a :: as, b :: bs => beqEntry a b && beqEntries as bs
  | _, _ => false

def beqInstance : ScContractInstance → ScContractInstance → Bool
  | ⟨e, none⟩, ⟨e', none⟩ => e == e'
  | ⟨e, some a⟩, ⟨e', some b⟩ => e == e' && beqEntries a b
  | _, _ => false

end

mutual

/-- Two values are the same exactly when they are equal. -/
theorem beq_iff_eq : ∀ a b : ScVal, beq a b = true ↔ a = b
  -- The kinds that hold values come first: they go on to the lists and to the instance.
  | .vec (some a), b => by
      cases b <;> try simp [beq]
      rename_i x
      cases x <;> simp [beq, beqItems_iff_eq a]
  | .map (some a), b => by
      cases b <;> try simp [beq]
      rename_i x
      cases x <;> simp [beq, beqEntries_iff_eq a]
  | .contractInstance a, b => by
      cases b <;> simp [beq, beqInstance_iff_eq a]
  | .vec none, b => by
      cases b <;> try simp [beq]
      rename_i x
      cases x <;> simp [beq]
  | .map none, b => by
      cases b <;> try simp [beq]
      rename_i x
      cases x <;> simp [beq]
  | .bool a, b => by cases b <;> simp [beq]
  | .void, b => by cases b <;> simp [beq]
  | .error a, b => by cases b <;> simp [beq]
  | .u32 a, b => by cases b <;> simp [beq]
  | .i32 a, b => by cases b <;> simp [beq]
  | .u64 a, b => by cases b <;> simp [beq]
  | .i64 a, b => by cases b <;> simp [beq]
  | .timepoint a, b => by cases b <;> simp [beq]
  | .duration a, b => by cases b <;> simp [beq]
  | .u128 a, b => by cases b <;> simp [beq]
  | .i128 a, b => by cases b <;> simp [beq]
  | .u256 a, b => by cases b <;> simp [beq]
  | .i256 a, b => by cases b <;> simp [beq]
  | .bytes a, b => by cases b <;> simp [beq]
  | .string a, b => by cases b <;> simp [beq]
  | .symbol a, b => by cases b <;> simp [beq]
  | .address a, b => by cases b <;> simp [beq]
  | .ledgerKeyContractInstance, b => by cases b <;> simp [beq]
  | .ledgerKeyNonce a, b => by cases b <;> simp [beq]

/-- Two lists of values are the same exactly when they are equal. -/
theorem beqItems_iff_eq : ∀ as bs : List ScVal, beqItems as bs = true ↔ as = bs
  | [], bs => by cases bs <;> simp [beqItems]
  | a :: as, bs => by
      cases bs <;> simp [beqItems, beq_iff_eq a, beqItems_iff_eq as]

/-- Two map entries are the same exactly when they are equal. -/
theorem beqEntry_iff_eq : ∀ a b : ScMapEntry, beqEntry a b = true ↔ a = b
  | ⟨k, v⟩, ⟨k', v'⟩ => by simp [beqEntry, beq_iff_eq k, beq_iff_eq v]

/-- Two lists of map entries are the same exactly when they are equal. -/
theorem beqEntries_iff_eq : ∀ as bs : List ScMapEntry, beqEntries as bs = true ↔ as = bs
  | [], bs => by cases bs <;> simp [beqEntries]
  | a :: as, bs => by
      cases bs <;> simp [beqEntries, beqEntry_iff_eq a, beqEntries_iff_eq as]

/-- Two contract instances are the same exactly when they are equal. -/
theorem beqInstance_iff_eq : ∀ a b : ScContractInstance, beqInstance a b = true ↔ a = b
  | ⟨e, none⟩, ⟨e', s⟩ => by cases s <;> simp [beqInstance]
  | ⟨e, some a⟩, ⟨e', s⟩ => by cases s <;> simp [beqInstance, beqEntries_iff_eq a]

end

instance : DecidableEq ScVal := fun a b => decidable_of_iff _ (beq_iff_eq a b)

instance : DecidableEq ScMapEntry := fun a b => decidable_of_iff _ (beqEntry_iff_eq a b)

instance : DecidableEq ScContractInstance := fun a b =>
  decidable_of_iff _ (beqInstance_iff_eq a b)

end ScVal

/-! ### Wire form -/

open Schema

namespace ScMapEntry

/-- A map entry, over a schema for values. -/
def schemaOf (value : Schema ScVal) : Schema ScMapEntry :=
  (field "key" value >> field "val" value).record (fun (key, val) => ⟨key, val⟩)
    fun e => (e.key, e.val)

end ScMapEntry

namespace ScContractInstance

/-- A contract instance, over a schema for values. -/
def schemaOf (value : Schema ScVal) : Schema ScContractInstance :=
  (field "executable" ContractExecutable.schema
    >> field "storage" (.optional (.array Limits.unbounded "ScMap" "contract_instance_storage"
        (ScMapEntry.schemaOf value)))).record
    (fun (executable, storage) => ⟨executable, storage⟩) fun i => (i.executable, i.storage)

end ScContractInstance

namespace ScVal

/-- One level of a value, over a schema for the values in it. -/
def layout (self : Schema ScVal) : Schema ScVal :=
  .union "ScValType"
    [ .of 0 "bool" .bool .bool fun | .bool b => some b | _ => none,
      .bare 1 "void" .void (· matches .void),
      .of 2 "error" ScError.schema .error fun | .error e => some e | _ => none,
      .of 3 "u32" .u32 .u32 fun | .u32 n => some n | _ => none,
      .of 4 "i32" .i32 .i32 fun | .i32 n => some n | _ => none,
      .of 5 "u64" .u64 .u64 fun | .u64 n => some n | _ => none,
      .of 6 "i64" .i64 .i64 fun | .i64 n => some n | _ => none,
      .of 7 "timepoint" .u64 .timepoint fun | .timepoint s => some s | _ => none,
      .of 8 "duration" .u64 .duration fun | .duration s => some s | _ => none,
      .of 9 "u128" UInt128Parts.schema .u128 fun | .u128 p => some p | _ => none,
      .of 10 "i128" Int128Parts.schema .i128 fun | .i128 p => some p | _ => none,
      .of 11 "u256" UInt256Parts.schema .u256 fun | .u256 p => some p | _ => none,
      .of 12 "i256" Int256Parts.schema .i256 fun | .i256 p => some p | _ => none,
      .of 13 "bytes" (.bytes Limits.unbounded "ScBytes" "sc_bytes") .bytes fun
        | .bytes b => some b
        | _ => none,
      .of 14 "string" (.bytes Limits.unbounded "ScString" "sc_string") .string fun
        | .string b => some b
        | _ => none,
      .of 15 "symbol" symbolSchema .symbol fun | .symbol s => some s | _ => none,
      .of 16 "vec" (.optional (.array Limits.unbounded "ScVec" "sc_vec" self)) .vec fun
        | .vec items => some items
        | _ => none,
      .of 17 "map"
        (.optional (.array Limits.unbounded "ScMap" "sc_map" (ScMapEntry.schemaOf self))) .map fun
        | .map entries => some entries
        | _ => none,
      .of 18 "address" ScAddress.schema .address fun | .address a => some a | _ => none,
      .of 19 "contract_instance" (ScContractInstance.schemaOf self) .contractInstance fun
        | .contractInstance i => some i
        | _ => none,
      .bare 20 "ledger_key_contract_instance" .ledgerKeyContractInstance
        (· matches .ledgerKeyContractInstance),
      .of 21 "ledger_key_nonce" .i64 .ledgerKeyNonce fun
        | .ledgerKeyNonce n => some n
        | _ => none ]

def schema : Schema ScVal := .recursive nesting layout

/-! ### Building and reading -/

/-- The discriminant of the value's arm. -/
def discriminant : ScVal → Int32
  | .bool _ => 0
  | .void => 1
  | .error _ => 2
  | .u32 _ => 3
  | .i32 _ => 4
  | .u64 _ => 5
  | .i64 _ => 6
  | .timepoint _ => 7
  | .duration _ => 8
  | .u128 _ => 9
  | .i128 _ => 10
  | .u256 _ => 11
  | .i256 _ => 12
  | .bytes _ => 13
  | .string _ => 14
  | .symbol _ => 15
  | .vec _ => 16
  | .map _ => 17
  | .address _ => 18
  | .contractInstance _ => 19
  | .ledgerKeyContractInstance => 20
  | .ledgerKeyNonce _ => 21

/-- The text of a string value, if its bytes are UTF-8. -/
def text? : ScVal → Option String
  | .string b => Bytes.toText? b
  | _ => none

def ofText (s : String) : ScVal := .string (Bytes.ofString s)

def ofSymbol (s : String) : Except WireError ScVal := do
  checkSymbol s
  return .symbol s

def ofNat128 (n : Nat) : ScVal := .u128 (.ofNat n)

def ofInt128 (n : Int) : ScVal := .i128 (.ofInt n)

def ofItems (items : List ScVal) : ScVal := .vec (some items)

def ofEntries (entries : List ScMapEntry) : ScVal := .map (some entries)

end ScVal

def ScMapEntry.schema : Schema ScMapEntry := ScMapEntry.schemaOf ScVal.schema

def ScContractInstance.schema : Schema ScContractInstance :=
  ScContractInstance.schemaOf ScVal.schema

end LedgerWire
