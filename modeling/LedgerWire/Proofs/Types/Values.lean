/-
# Contract values are regular

A contract value contains values through vectors, maps and the storage of instances. Every value on
the way into one is read one level further in, and `ScVal.nesting` counts them.

* `symbolView`, `ScError.flat` — the parts whose rules are judged on both sides.
* `ScVal.nestingItems_eq`, `ScVal.nestingEntries_eq` — the nesting of lists is that of the deepest.
* `ScVal.wire_eq` — a value is one level of its layout over values.
* `ScVal.regular` — the nesting of a value is what reading counts.
-/

import LedgerWire.Proofs.Schema.Recursion
import LedgerWire.Proofs.Types.Settings

namespace LedgerWire

open Codec
open Get (Agree)

/-! ### Symbols, errors and wide integers -/

/-- Symbols are the texts that pass the check, as they are. -/
theorem symbolView : View symbolOfText id checkSymbol where
  toWire_of_ofWire {s t} h := by
    unfold symbolOfText at h
    split at h
    · cases h
    · cases h
      rfl
  ofWire_toWire {s} h := by
    unfold checkSymbol at h
    show symbolOfText s = .ok s
    unfold symbolOfText
    split at h
    · cases h
    · rfl
  judges := judges_checkSymbol
  isRefusal {s e} h := by
    unfold symbolOfText at h
    split at h
    · cases h
      trivial
    · cases h

theorem flat_symbol : symbolSchema.wire.Flat := fun k => .view symbolView (flat_text _ _ _ k)

namespace ScError

theorem flat : ScError.schema.wire.Flat := by
  intro k
  let hostArms := (ScErrorType.enumeration.all.filter (· ≠ .contract)).map hostArm
  have hhost : Parts k (fun _ => 0) hostArms := by
    refine List.forall_mem_map.2 fun type _ => ⟨fun _ => if_pos rfl, ?_⟩
    exact ScErrorCode.flat k
  refine .guarded_union_of_parts (fun e => ?_) rfl judges_scError (.of rfl .u32 hhost)
  cases e with
  | contract code => exact .inl rfl
  | host type code =>
      cases type with
      | contract => exact .inr ⟨rfl, nofun⟩
      | _ => exact .inl rfl

end ScError

theorem UInt128Parts.flat : UInt128Parts.schema.wire.Flat :=
  .imap rfl rfl <| .both flat_u64 flat_u64

theorem Int128Parts.flat : Int128Parts.schema.wire.Flat :=
  .imap rfl rfl <| .both flat_i64 flat_u64

theorem UInt256Parts.flat : UInt256Parts.schema.wire.Flat :=
  .imap rfl rfl <| .both flat_u64 <| .both flat_u64 <| .both flat_u64 flat_u64

theorem Int256Parts.flat : Int256Parts.schema.wire.Flat :=
  .imap rfl rfl <| .both flat_i64 <| .both flat_u64 <| .both flat_u64 flat_u64

theorem ContractExecutable.flat : ContractExecutable.schema.wire.Flat :=
  .union (fun a => by cases a <;> rfl) rfl fun k => .of rfl (Hash.flat k) <| .bare rfl rfl .nil

/-! ### Nesting -/

namespace ScVal

/-- A value alone is one level. -/
theorem nesting_pos (v : ScVal) : 0 < v.nesting := by
  unfold nesting
  split <;> omega

/-- A map entry is as deep as the deeper of its sides. -/
theorem nestingEntry_eq (e : ScMapEntry) : nestingEntry e = max e.key.nesting e.val.nesting := by
  cases e
  rw [nestingEntry]

/-- The mutual recursion on items is the nesting of the deepest. -/
theorem nestingItems_eq (items : List ScVal) : nestingItems items = deepest nesting items := by
  induction items with
  | nil => rw [nestingItems, deepest]
  | cons v rest ih => rw [nestingItems, deepest, ih]

/-- The mutual recursion on entries is the nesting of the deepest. -/
theorem nestingEntries_eq (entries : List ScMapEntry) :
    nestingEntries entries = deepest nestingEntry entries := by
  induction entries with
  | nil => rw [nestingEntries, deepest]
  | cons e rest ih => rw [nestingEntries, deepest, ih]

/-- An instance is as deep as its storage, and nothing if it has none. -/
theorem nestingInstance_eq (i : ScContractInstance) :
    nestingInstance i = i.storage.elim 0 (deepest nestingEntry) := by
  obtain ⟨executable, _ | entries⟩ := i
  · rw [nestingInstance]
    rfl
  · rw [nestingInstance, nestingEntries_eq]
    rfl

/-- An item is less nested than its vector. -/
theorem nesting_lt_vec {v : ScVal} {items : List ScVal} (hv : v ∈ items) :
    nesting v < nesting (.vec (some items)) := by
  have hle := Regular.le_deepest (f := nesting) hv
  rw [nesting, nestingItems_eq]
  omega

/-- The entries are less nested than their map. -/
theorem deepest_lt_map (entries : Option (List ScMapEntry)) :
    entries.elim 0 (deepest nestingEntry) < nesting (.map entries) := by
  cases entries with
  | none => exact nesting_pos _
  | some entries =>
      rw [nesting, nestingEntries_eq]
      exact Nat.lt_succ_self _

/-- The storage is less nested than its instance. -/
theorem deepest_lt_contractInstance (i : ScContractInstance) :
    i.storage.elim 0 (deepest nestingEntry) < nesting (.contractInstance i) := by
  rw [nesting, nestingInstance_eq]
  omega

/-! ### One level -/

variable {k : Nat} {self : Schema ScVal}

/-- A map entry is regular if the values are. -/
theorem regular_entry (h : Regular k self.wire nesting) :
    Regular k (ScMapEntry.schemaOf self).wire nestingEntry := by
  have hentry : Regular k (ScMapEntry.schemaOf self).wire fun e =>
      max e.key.nesting e.val.nesting :=
    -- The type is part of a mutual block, so its values have no definitional eta.
    .imap rfl (funext fun e => by cases e; rfl) (h.both h)
  exact hentry.congr nestingEntry_eq

theorem hungry_entry (hungry : self.wire.get.Hungry) :
    (ScMapEntry.schemaOf self).wire.get.Hungry := (hungry.bind _).bind _

/-- An instance is regular if the values of its storage are. -/
theorem regular_instance (h : Regular k self.wire nesting) (hungry : self.wire.get.Hungry) :
    Regular k (ScContractInstance.schemaOf self).wire nestingInstance := by
  have hstorage := (Regular.array Limits.unbounded "ScMap" "contract_instance_storage"
    (hungry_entry hungry) (regular_entry h)).optional
  have hinstance : Regular k (ScContractInstance.schemaOf self).wire fun i =>
      i.storage.elim 0 (deepest nestingEntry) :=
    .imap rfl (funext fun i => by cases i; rfl) (.behind ContractExecutable.flat hstorage)
  exact hinstance.congr nestingInstance_eq

/-- **One level of values is regular** if the level below is. -/
theorem regular_layout (h : Regular k self.wire nesting) (hungry : self.wire.get.Hungry) :
    Regular k (layout self).wire fun v => v.nesting - 1 := by
  have hvec : Regular k (self.wire.array Limits.unbounded "ScVec" "sc_vec").optional
      fun items => (ScVal.vec items).nesting - 1 := by
    refine (h.array Limits.unbounded "ScVec" "sc_vec" hungry).optional.congr fun items => ?_
    cases items with
    | none => rfl
    | some items => exact nestingItems_eq items
  have hmap : Regular k
      ((ScMapEntry.schemaOf self).wire.array Limits.unbounded "ScMap" "sc_map").optional
      fun entries => (ScVal.map entries).nesting - 1 := by
    refine ((regular_entry h).array Limits.unbounded "ScMap" "sc_map"
      (hungry_entry hungry)).optional.congr fun entries => ?_
    cases entries with
    | none => rfl
    | some entries => exact nestingEntries_eq entries
  refine .union_of_parts (fun a => by cases a <;> rfl) rfl ?_
  exact .of rfl .bool <| .bare rfl rfl <| .of rfl (ScError.flat k) <| .of rfl .u32 <|
    .of rfl .i32 <| .of rfl .u64 <| .of rfl .i64 <| .of rfl .u64 <| .of rfl .u64 <|
    .of rfl (UInt128Parts.flat k) <| .of rfl (Int128Parts.flat k) <|
    .of rfl (UInt256Parts.flat k) <| .of rfl (Int256Parts.flat k) <| .of rfl (.bytes _ _ _) <|
    .of rfl (.bytes _ _ _) <| .of rfl (flat_symbol k) <| .of rfl hvec <| .of rfl hmap <|
    .of rfl (ScAddress.flat k) <| .of rfl (regular_instance h hungry) <| .bare rfl rfl <|
    .of rfl .i64 .nil

/-! ### One level and the whole -/

variable {self' : Schema ScVal}

/-- A map entry is written alike by writings that agree on what is less nested. -/
theorem put_entry {n : Nat} (h : ∀ v, nesting v < n → self.wire.put v = self'.wire.put v)
    {e : ScMapEntry} (he : nestingEntry e < n) :
    (ScMapEntry.schemaOf self).wire.put e = (ScMapEntry.schemaOf self').wire.put e := by
  rw [nestingEntry_eq] at he
  show (do self.wire.put e.key; self.wire.put e.val) = _
  rw [h e.key (by omega), h e.val (by omega)]
  rfl

/-- A storage is written alike by writings that agree on what is less nested. -/
theorem put_entries {n : Nat} (h : ∀ v, nesting v < n → self.wire.put v = self'.wire.put v)
    (max : UInt32) (field : String) {o : Option (List ScMapEntry)}
    (ho : o.elim 0 (deepest nestingEntry) < n) :
    Put.optional (Put.array max field (ScMapEntry.schemaOf self).wire.put) o
      = Put.optional (Put.array max field (ScMapEntry.schemaOf self').wire.put) o := by
  refine Put.optional_congr fun entries hentries => ?_
  obtain rfl : o = some entries := hentries
  exact Put.array_congr max field fun e he =>
    put_entry h (Nat.lt_of_le_of_lt (Regular.le_deepest he) ho)

/-- A storage is read alike by readings that agree on values. -/
theorem agree_entries {room : Nat} (h : Agree room self.wire.get self'.wire.get) :
    Agree room
      ((ScMapEntry.schemaOf self).wire.get.array Limits.unbounded "ScMap").optional
      ((ScMapEntry.schemaOf self').wire.get.array Limits.unbounded "ScMap").optional :=
  have hentry : Agree room (ScMapEntry.schemaOf self).wire.get
      (ScMapEntry.schemaOf self').wire.get :=
    agree_imap (agree_both h h)
  (hentry.array _ _).optional

/-- **The layout of values is local**: a level looks at less nested values only. -/
theorem local_layout : Schema.Local nesting layout where
  own_pos := nesting_pos
  put_congr {self self' v} h := by
    have hvec : ∀ items, v = .vec items →
        Put.optional (Put.array Limits.unbounded "sc_vec" self.wire.put) items
          = Put.optional (Put.array Limits.unbounded "sc_vec" self'.wire.put) items := by
      rintro items rfl
      refine Put.optional_congr fun list hlist => Put.array_congr _ _ fun v hv => h v ?_
      obtain rfl : items = some list := hlist
      exact nesting_lt_vec hv
    have hmap : ∀ entries, v = .map entries →
        Put.optional (Put.array Limits.unbounded "sc_map" (ScMapEntry.schemaOf self).wire.put)
            entries
          = Put.optional (Put.array Limits.unbounded "sc_map" (ScMapEntry.schemaOf self').wire.put)
            entries := by
      rintro entries rfl
      exact put_entries h _ _ (deepest_lt_map entries)
    have hinstance : ∀ i, v = .contractInstance i →
        (ScContractInstance.schemaOf self).wire.put i
          = (ScContractInstance.schemaOf self').wire.put i := by
      rintro i rfl
      have hstorage := put_entries h Limits.unbounded "contract_instance_storage"
        (deepest_lt_contractInstance i)
      exact congrArg (ContractExecutable.schema.wire.put i.executable >>= fun _ => ·) hstorage
    -- Three arms hold values, and the others write the same over any schema.
    refine Schema.put_union_congr ?_
    exact .same <| .same <| .same <| .same <| .same <| .same <| .same <| .same <| .same <|
      .same <| .same <| .same <| .same <| .same <| .same <| .same <|
      .of (fun items hv => hvec items (by cases v <;> cases hv; rfl)) <|
      .of (fun entries hv => hmap entries (by cases v <;> cases hv; rfl)) <| .same <|
      .of (fun i hv => hinstance i (by cases v <;> cases hv; rfl)) <| .same <| .same .nil
  get_congr {self self' room} h := by
    have hinstance : Agree room (ScContractInstance.schemaOf self).wire.get
        (ScContractInstance.schemaOf self').wire.get :=
      agree_imap (agree_both ContractExecutable.flat.agree (agree_entries h))
    refine Schema.agree_union ?_
    exact .of flat_bool.agree <| .bare <| .of ScError.flat.agree <| .of flat_u32.agree <|
      .of flat_i32.agree <| .of flat_u64.agree <| .of flat_i64.agree <| .of flat_u64.agree <|
      .of flat_u64.agree <| .of UInt128Parts.flat.agree <| .of Int128Parts.flat.agree <|
      .of UInt256Parts.flat.agree <| .of Int256Parts.flat.agree <|
      .of (flat_bytes _ _ _).agree <| .of (flat_bytes _ _ _).agree <| .of flat_symbol.agree <|
      .of (h.array _ _).optional <| .of (agree_entries h) <| .of ScAddress.flat.agree <|
      .of hinstance <| .bare <| .of flat_i64.agree .nil

/-- A value is one level of the layout over values, read one level further in. -/
theorem wire_eq : schema.wire = (layout schema).wire.nested := Schema.recursive_wire local_layout

theorem hungry : schema.wire.get.Hungry := by
  rw [wire_eq]
  exact Get.Hungry.nested (Get.hungry_i32.bind _)

/-- **The nesting of a value is what reading counts.** -/
theorem regular (k : Nat) : Regular k schema.wire nesting :=
  Schema.regular_recursive local_layout nesting_pos (fun _ h => regular_layout h hungry) k

end ScVal

theorem ScMapEntry.regular (k : Nat) : Regular k ScMapEntry.schema.wire ScVal.nestingEntry :=
  ScVal.regular_entry (ScVal.regular k)

theorem ScContractInstance.regular (k : Nat) :
    Regular k ScContractInstance.schema.wire ScVal.nestingInstance :=
  ScVal.regular_instance (ScVal.regular k) ScVal.hungry

end LedgerWire
