/-
# Types whose projections lose nothing

Names, assets, conditions, contract values and calls. Most of their values are read from their
projections whether they touch the wire or not; the rules of assets and signers are needed where a
text stands for the value. Each proof repeats the schema of its type.

* `SignerKey.validate_of_reached`, `Asset.validate_of_reached` — rules of all that touches the wire.
* `ClaimPredicate.shows_layout`, `ScVal.shows_layout`, … — documents show all levels of a value.
* `ScVal.lossless`, `SorobanAuthorizationEntry.lossless`, … — one theorem a type.
-/

import LedgerWire.Proofs.Schema.Lossless
import LedgerWire.Proofs.Spellings
import LedgerWire.Proofs.Types.Strict

namespace LedgerWire

open Schema

/-! ### Names and amounts -/

theorem Amount.lossless : Amount.schema.Lossless := lossless_shownAs fun a _ => a.ofText_text

theorem Hash.lossless : Hash.schema.Lossless := lossless_shownAs fun h _ => h.ofText_text

theorem AccountId.lossless : AccountId.schema.Lossless := lossless_shownAs fun a _ => a.ofText_text

theorem MuxedAccount.lossless : MuxedAccount.schema.Lossless :=
  lossless_shownAs fun m _ => m.ofText_text

theorem ScAddress.lossless : ScAddress.schema.Lossless := lossless_shownAs fun a _ => a.ofText_text

theorem PoolId.lossless : PoolId.schema.Lossless := lossless_shownAs fun p _ => p.ofText_text

theorem ClaimableBalanceId.lossless : ClaimableBalanceId.schema.Lossless :=
  lossless_shownAs fun b _ => b.ofText_text

theorem Price.lossless : Price.schema.Lossless :=
  .record rfl rfl (by simp) <| .cons lossless_i32 <| .last lossless_i32

/-! ### Signers -/

namespace SignerKey

/-- Payloads have the same bound in both directions. -/
theorem validate_of_reached {k : SignerKey} (h : SignerKey.schema.wire.Reached k) :
    k.validate = .ok () := by
  obtain ⟨arm, harm, payload, rfl, hpayload⟩ :=
    Codec.Reached.union (fun a => by cases a <;> rfl) h
  simp only [List.mem_cons, List.not_mem_nil, or_false] at harm
  rcases harm with rfl | rfl | rfl | rfl
  · rfl
  · rfl
  · rfl
  · exact if_pos hpayload.both.2.bytes

theorem lossless : SignerKey.schema.Lossless :=
  lossless_shownAs fun _ hk => ofText_text (validate_of_reached hk)

end SignerKey

theorem Signer.lossless : Signer.schema.Lossless :=
  .guarded <| .record rfl rfl (by simp) <| .cons SignerKey.lossless <| .last lossless_u32

/-! ### Assets -/

/-- Codes are checked in both directions. -/
theorem Credit.validate_of_reached {width : CodeWidth} {c : Credit}
    (h : (Credit.schema width).wire.Reached c) : c.validate width = .ok () := by
  refine h.judged fun c hget => ?_
  obtain ⟨x, hx, rfl⟩ := Codec.gives_imap hget
  obtain ⟨raw, -, hcode⟩ := Codec.gives_convert (Codec.gives_both hx).1
  exact checkCode_eq_ok_iff.2 (codeOfBytes_eq_ok_iff.1 hcode).1

theorem Credit.lossless (width : CodeWidth) : (Credit.schema width).Lossless := by
  have hcode : (codeSchema width).Lossless :=
    lossless_of_restores Json.Form.restores_string
  exact .guarded <| .record rfl rfl (by simp) <| .cons hcode <| .last AccountId.lossless

namespace Asset

/-- An asset that was written or read is a valid one. -/
theorem validate_of_reached {a : Asset} (h : Asset.schema.wire.Reached a) :
    a.validate = .ok () := by
  obtain ⟨arm, harm, payload, rfl, hpayload⟩ :=
    Codec.Reached.union (fun a => by rcases a with _ | ⟨_ | _, _⟩ <;> rfl) h
  simp only [Asset.arms, List.map_cons, List.map_nil, List.mem_cons, List.not_mem_nil,
    or_false] at harm
  rcases harm with rfl | rfl | rfl
  · rfl
  · exact Credit.validate_of_reached hpayload
  · exact Credit.validate_of_reached hpayload

theorem lossless : Asset.schema.Lossless :=
  lossless_shownAs fun _ ha => ofText_text (validate_of_reached ha)

variable {α : Type} {inject : Asset → α} {project : α → Option Asset}

/-- The arms of the plain assets lose nothing, with any arms behind them. -/
theorem losslessArms (hproject : ∀ a, project (inject a) = some a) {names : List String}
    {rest : List (Schema.Arm α)} (hrest : LosslessArms names rest) :
    LosslessArms ("native" :: "credit_alphanum4" :: "credit_alphanum12" :: names)
      (arms inject project ++ rest) := by
  have hnative : (project (inject .native) == some .native) = true := by simp [hproject]
  have hcredit : ∀ w c, (project (inject (.credit w c))).bind (credit? w) = some c := by
    intro w c
    rw [hproject]
    exact if_pos rfl
  exact .bare hnative <| .of (funext (hcredit .four)) (Credit.lossless .four) <|
    .of (funext (hcredit .twelve)) (Credit.lossless .twelve) hrest

end Asset

namespace LineAsset

/-- A line loses nothing whenever its pool shares do not. -/
theorem lossless {Share : Type} {share : Schema Share} (h : share.Lossless) :
    (schemaOf share).Lossless := by
  have hshare : LosslessArms ["pool_share"]
      [.of 3 "pool_share" share (.poolShare : Share → LineAsset Share) share?] :=
    .of rfl h .nil
  refine .union (fun x => ?_) (by simp) (Asset.losslessArms asset?_asset hshare)
  rcases x with _ | ⟨_ | _, _⟩ | _ <;> rfl

end LineAsset

theorem LiquidityPoolParameters.lossless : LiquidityPoolParameters.schema.Lossless :=
  .guarded <| .behind <| .record rfl rfl (by simp) <|
    .cons Asset.lossless <| .cons Asset.lossless <| .last lossless_i32

theorem ChangeTrustAsset.lossless : ChangeTrustAsset.schema.Lossless :=
  LineAsset.lossless LiquidityPoolParameters.lossless

theorem TrustLineAsset.lossless : TrustLineAsset.schema.Lossless :=
  LineAsset.lossless PoolId.lossless

/-! ### Conditions -/

namespace ClaimPredicate

variable {self self' : Schema ClaimPredicate} {left right : ClaimPredicate}

/-- Two children have the same form by writings that agree on each. -/
theorem write_pair (hleft : self.json.write left = self'.json.write left)
    (hright : self.json.write right = self'.json.write right) :
    (pair self).json.write (left, right) = (pair self').json.write (left, right) := by
  show Json.arr [self.json.write left, self.json.write right] = _
  rw [hleft, hright]
  rfl

/-- Two nested children show in the depth of their form. -/
theorem max_le_depth_pair (hleft : left.nesting ≤ (self.json.write left).depth + 1)
    (hright : right.nesting ≤ (self.json.write right).depth + 1) :
    max left.nesting right.nesting ≤ ((pair self).json.write (left, right)).depth := by
  show _ ≤ (Json.arr [self.json.write left, self.json.write right]).depth
  simp only [Json.depth, Json.depthItems]
  omega

/-- **The form shows the nesting**: each level of predicates is a level of the tree at least. -/
theorem shows_layout : Schema.Shows nesting layout where
  write_congr {self self' p} h := by
    cases p with
    | and left right =>
        have hpair := write_pair (h left (by rw [nesting]; omega))
          (h right (by rw [nesting]; omega))
        exact congrArg (fun j => Json.obj [("and", j)]) hpair
    | or left right =>
        have hpair := write_pair (h left (by rw [nesting]; omega))
          (h right (by rw [nesting]; omega))
        exact congrArg (fun j => Json.obj [("or", j)]) hpair
    | not inner =>
        have hinner := h inner (by rw [nesting]; omega)
        exact congrArg (fun j => Json.obj [("not", j)]) hinner
    | _ => rfl
  own_le {self p} h := by
    cases p with
    | and left right =>
        have hpair := max_le_depth_pair (h left (by rw [nesting]; omega))
          (h right (by rw [nesting]; omega))
        show _ ≤ (Json.obj [("and", (pair self).json.write (left, right))]).depth + 1
        simp only [nesting, Json.depth, Json.depthMembers]
        omega
    | or left right =>
        have hpair := max_le_depth_pair (h left (by rw [nesting]; omega))
          (h right (by rw [nesting]; omega))
        show _ ≤ (Json.obj [("or", (pair self).json.write (left, right))]).depth + 1
        simp only [nesting, Json.depth, Json.depthMembers]
        omega
    | not inner =>
        have hinner := h inner (by rw [nesting]; omega)
        show _ ≤ (Json.obj [("not", self.json.write inner)]).depth + 1
        simp only [nesting, Json.depth, Json.depthMembers]
        omega
    | _ => exact Nat.le_add_left ..

theorem lossless_layout (h : self.Lossless) : (layout self).Lossless := by
  have hpair : (pair self).Lossless := by
    intro x hx
    have hparts := (Codec.Reached.imap rfl hx).both.2
    exact .two (h x.1 hparts.both.1) (h x.2 hparts.both.2)
  have hchild : (child self).Lossless := by
    intro p hp
    exact h p ((hp.convert childView.toWire_of_ofWire).optional p rfl)
  exact .union (fun a => by cases a <;> rfl) (by simp) <|
    .bare rfl <| .of rfl hpair <| .of rfl hpair <| .of rfl hchild <|
    .of rfl lossless_i64 <| .of rfl lossless_i64 .nil

theorem lossless : schema.Lossless :=
  .recursive local_layout shows_layout (fun _ h => lossless_layout h) strict

end ClaimPredicate

theorem Claimant.lossless : Claimant.schema.Lossless :=
  .behind <| .record rfl rfl (by simp) <|
    .cons AccountId.lossless <| .last ClaimPredicate.lossless

/-! ### Contract values -/

theorem lossless_symbol : symbolSchema.Lossless :=
  lossless_of_restores Json.Form.restores_string

theorem ScErrorType.lossless : ScErrorType.schema.Lossless :=
  Enumeration.lossless fun t => by cases t <;> rfl

theorem ScErrorCode.lossless : ScErrorCode.schema.Lossless :=
  Enumeration.lossless fun c => by cases c <;> rfl

namespace ScError

/-- In JSON the failures of the host are one arm, and every one of them is restored. -/
theorem lossless : ScError.schema.Lossless := by
  have hparts : LosslessArms ["contract", "host"]
      [ .of 0 "contract" .u32 ScError.contract code?,
        .of 1 "host" (.two ScErrorType.schema ScErrorCode.schema)
          (fun failure => .host failure.1 failure.2) failure? ] :=
    .of rfl lossless_u32 <| .of rfl (ScErrorType.lossless.two ScErrorCode.lossless) .nil
  refine lossless_of_restores fun e => ?_
  cases e with
  | contract code =>
      exact hparts.restores (by decide) List.mem_cons_self rfl (Json.Form.restores_u32 code)
  | host type code =>
      have htype : ScErrorType.schema.json.Restores type :=
        Enumeration.restores (by cases type <;> rfl)
      have hcode : ScErrorCode.schema.json.Restores code :=
        Enumeration.restores (by cases code <;> rfl)
      exact hparts.restores (by decide) (List.mem_cons_of_mem _ List.mem_cons_self) rfl
        (htype.two hcode)

end ScError

theorem ContractExecutable.lossless : ContractExecutable.schema.Lossless :=
  .union (fun a => by cases a <;> rfl) (by simp) <| .of rfl Hash.lossless <| .bare rfl .nil

namespace ScVal

variable {self self' : Schema ScVal}

/-- A map entry has the same form by writings that agree on its two values. -/
theorem write_entry {n : Nat} (h : ∀ v, nesting v < n → self.json.write v = self'.json.write v)
    {e : ScMapEntry} (he : nestingEntry e < n) :
    (ScMapEntry.schemaOf self).json.write e = (ScMapEntry.schemaOf self').json.write e := by
  rw [nestingEntry_eq] at he
  show Json.obj [("key", self.json.write e.key), ("val", self.json.write e.val)] = _
  rw [h e.key (by omega), h e.val (by omega)]
  rfl

/-- A storage has the same form by writings that agree on what is less nested. -/
theorem write_entries {n : Nat} (h : ∀ v, nesting v < n → self.json.write v = self'.json.write v)
    {o : Option (List ScMapEntry)} (ho : o.elim 0 (Codec.deepest nestingEntry) < n) :
    (ScMapEntry.schemaOf self).json.list.option.write o
      = (ScMapEntry.schemaOf self').json.list.option.write o := by
  refine Schema.write_option_congr fun entries hentries => ?_
  obtain rfl : o = some entries := hentries
  exact Schema.write_list_congr fun e he =>
    write_entry h (Nat.lt_of_le_of_lt (Codec.Regular.le_deepest he) ho)

/-- Parts are shown with less nesting than the whole. -/
theorem write_layout_congr {v : ScVal}
    (h : ∀ w, nesting w < nesting v → self.json.write w = self'.json.write w) :
    (layout self).json.write v = (layout self').json.write v := by
  have hvec : ∀ items, v = .vec items →
      self.json.list.option.write items = self'.json.list.option.write items := by
    rintro items rfl
    refine Schema.write_option_congr fun list hlist => Schema.write_list_congr fun w hw => h w ?_
    obtain rfl : items = some list := hlist
    exact nesting_lt_vec hw
  have hmap : ∀ entries, v = .map entries →
      (ScMapEntry.schemaOf self).json.list.option.write entries
        = (ScMapEntry.schemaOf self').json.list.option.write entries := by
    rintro entries rfl
    exact write_entries h (deepest_lt_map entries)
  have hinstance : ∀ i, v = .contractInstance i →
      (ScContractInstance.schemaOf self).json.write i
        = (ScContractInstance.schemaOf self').json.write i := by
    rintro i rfl
    have hstorage := write_entries h (deepest_lt_contractInstance i)
    exact congrArg (fun j => Json.obj [("executable",
      ContractExecutable.schema.json.write i.executable), ("storage", j)]) hstorage
  refine Schema.write_union_congr ?_
  exact .cons rfl <| .cons rfl <| .cons rfl <| .cons rfl <| .cons rfl <| .cons rfl <|
    .cons rfl <| .cons rfl <| .cons rfl <| .cons rfl <| .cons rfl <| .cons rfl <|
    .cons rfl <| .cons rfl <| .cons rfl <| .cons rfl <|
    .cons (Schema.write?_congr fun items hv => hvec items (by cases v <;> cases hv; rfl)) <|
    .cons (Schema.write?_congr fun entries hv => hmap entries (by cases v <;> cases hv; rfl)) <|
    .cons rfl <|
    .cons (Schema.write?_congr fun i hv => hinstance i (by cases v <;> cases hv; rfl)) <|
    .cons rfl <| .cons rfl .nil

/-- The nesting of some entries shows in the depth of their form. -/
theorem deepest_le_depth_entries {n : Nat}
    (h : ∀ v, nesting v < n → nesting v ≤ (self.json.write v).depth + 1)
    {entries : List ScMapEntry} (hn : Codec.deepest nestingEntry entries < n) :
    Codec.deepest nestingEntry entries
      ≤ Json.depthItems (entries.map (ScMapEntry.schemaOf self).json.write) + 1 := by
  refine Schema.deepest_le_depthItems fun e he => ?_
  have hle := Codec.Regular.le_deepest (f := nestingEntry) he
  rw [nestingEntry_eq] at hle ⊢
  have hkey := h e.key (by omega)
  have hval := h e.val (by omega)
  show _ ≤ (Json.obj [("key", self.json.write e.key), ("val", self.json.write e.val)]).depth + 1
  simp only [Json.depth, Json.depthMembers]
  omega

/-- A document has a level for each value on the way into the one that it shows, the last one apart,
which may be a string or a number. -/
theorem nesting_le_depth_layout {v : ScVal}
    (h : ∀ w, nesting w < nesting v → nesting w ≤ (self.json.write w).depth + 1) :
    nesting v ≤ ((layout self).json.write v).depth + 1 := by
  cases v with
  | vec items =>
      cases items with
      | none => exact Nat.le_add_left ..
      | some items =>
          have hitems := Schema.deepest_le_depthItems fun w hw => h w (nesting_lt_vec hw)
          show _ ≤ (Json.obj [("vec", .arr (items.map self.json.write))]).depth + 1
          rw [nesting, nestingItems_eq]
          simp only [Json.depth, Json.depthMembers]
          omega
  | map entries =>
      cases entries with
      | none => exact Nat.le_add_left ..
      | some entries =>
          have hentries := deepest_le_depth_entries h (deepest_lt_map (some entries))
          show _ ≤ (Json.obj [("map",
            .arr (entries.map (ScMapEntry.schemaOf self).json.write))]).depth + 1
          rw [nesting, nestingEntries_eq]
          simp only [Json.depth, Json.depthMembers]
          omega
  | contractInstance i =>
      obtain ⟨executable, storage⟩ := i
      cases storage with
      | none => exact Nat.le_add_left ..
      | some entries =>
          have hentries := deepest_le_depth_entries h
            (deepest_lt_contractInstance ⟨executable, some entries⟩)
          show _ ≤ (Json.obj [("contract_instance",
            .obj [("executable", ContractExecutable.schema.json.write executable),
              ("storage",
                .arr (entries.map (ScMapEntry.schemaOf self).json.write))])]).depth + 1
          rw [nesting, nestingInstance, nestingEntries_eq]
          simp only [Json.depth, Json.depthMembers]
          omega
  | _ => exact Nat.le_add_left ..

theorem shows_layout : Schema.Shows nesting layout where
  write_congr h := write_layout_congr h
  own_le h := nesting_le_depth_layout h

theorem lossless_layout (h : self.Lossless) : (layout self).Lossless := by
  have hu128 : UInt128Parts.schema.Lossless :=
    .record rfl rfl (by simp) <| .cons lossless_u64 <| .last lossless_u64
  have hi128 : Int128Parts.schema.Lossless :=
    .record rfl rfl (by simp) <| .cons lossless_i64 <| .last lossless_u64
  have hu256 : UInt256Parts.schema.Lossless :=
    .record rfl rfl (by simp) <| .cons lossless_u64 <| .cons lossless_u64 <|
      .cons lossless_u64 <| .last lossless_u64
  have hi256 : Int256Parts.schema.Lossless :=
    .record rfl rfl (by simp) <| .cons lossless_i64 <| .cons lossless_u64 <|
      .cons lossless_u64 <| .last lossless_u64
  have hentry : (ScMapEntry.schemaOf self).Lossless :=
    .record rfl (funext fun e => by cases e; rfl) (by simp) <| .cons h <| .last h
  have hinstance : (ScContractInstance.schemaOf self).Lossless :=
    .record rfl (funext fun i => by cases i; rfl) (by simp) <| .cons ContractExecutable.lossless <|
      .last <| .optional (fun _ => nofun) hentry.array
  exact .union (fun a => by cases a <;> rfl) (by simp) <|
    .of rfl lossless_bool <| .bare rfl <| .of rfl ScError.lossless <| .of rfl lossless_u32 <|
    .of rfl lossless_i32 <| .of rfl lossless_u64 <| .of rfl lossless_i64 <|
    .of rfl lossless_u64 <| .of rfl lossless_u64 <| .of rfl hu128 <| .of rfl hi128 <|
    .of rfl hu256 <| .of rfl hi256 <| .of rfl (lossless_bytes _ _ _) <|
    .of rfl (lossless_bytes _ _ _) <| .of rfl lossless_symbol <|
    .of rfl (.optional (fun _ => nofun) h.array) <|
    .of rfl (.optional (fun _ => nofun) hentry.array) <| .of rfl ScAddress.lossless <|
    .of rfl hinstance <| .bare rfl <| .of rfl lossless_i64 .nil

theorem lossless : schema.Lossless :=
  .recursive local_layout shows_layout (fun _ h => lossless_layout h) strict

end ScVal

/-! ### Requests to the host -/

theorem ContractIdPreimage.lossless : ContractIdPreimage.schema.Lossless := by
  have haddress : ContractIdAddressPreimage.schema.Lossless :=
    .record rfl rfl (by simp) <| .cons ScAddress.lossless <| .last (lossless_fixed 32)
  exact .union (fun a => by cases a <;> rfl) (by simp) <|
    .of rfl haddress <| .of rfl Asset.lossless .nil

theorem InvokeContractArgs.lossless : InvokeContractArgs.schema.Lossless :=
  .record rfl rfl (by simp) <| .cons ScAddress.lossless <| .cons lossless_symbol <|
    .last ScVal.lossless.array

theorem CreateContractArgs.lossless : CreateContractArgs.schema.Lossless :=
  .record rfl rfl (by simp) <| .cons ContractIdPreimage.lossless <|
    .last ContractExecutable.lossless

theorem CreateContractArgsV2.lossless : CreateContractArgsV2.schema.Lossless :=
  .record rfl rfl (by simp) <| .cons ContractIdPreimage.lossless <|
    .cons ContractExecutable.lossless <| .last ScVal.lossless.array

theorem HostFunction.lossless : HostFunction.schema.Lossless :=
  .union (fun a => by cases a <;> rfl) (by simp) <|
    .of rfl InvokeContractArgs.lossless <| .of rfl CreateContractArgs.lossless <|
    .of rfl (lossless_bytes _ _ _) <| .of rfl CreateContractArgsV2.lossless .nil

/-! ### Authorizations -/

theorem SorobanAuthorizedFunction.lossless : SorobanAuthorizedFunction.schema.Lossless :=
  .union (fun a => by cases a <;> rfl) (by simp) <|
    .of rfl InvokeContractArgs.lossless <| .of rfl CreateContractArgs.lossless <|
    .of rfl CreateContractArgsV2.lossless .nil

namespace SorobanAuthorizedInvocation

theorem shows_layout : Schema.Shows depth layout where
  write_congr {self self' t} h := by
    obtain ⟨function, subs⟩ := t
    have hsubs : self.json.list.write subs = self'.json.list.write subs :=
      Schema.write_list_congr fun s hs => h s (depth_lt_of_mem hs)
    exact congrArg (fun j => Json.obj [("function",
      SorobanAuthorizedFunction.schema.json.write function), ("sub_invocations", j)]) hsubs
  own_le {self t} h := by
    obtain ⟨function, subs⟩ := t
    have hsubs : Codec.deepest depth subs ≤ Json.depthItems (subs.map self.json.write) + 1 :=
      Schema.deepest_le_depthItems fun s hs => h s (depth_lt_of_mem hs)
    show _ ≤ (Json.obj [("function", SorobanAuthorizedFunction.schema.json.write function),
      ("sub_invocations", .arr (subs.map self.json.write))]).depth + 1
    rw [depth, depthAll_eq]
    simp only [Json.depth, Json.depthMembers]
    omega

theorem lossless : schema.Lossless := by
  refine .recursive local_layout shows_layout (fun self h => ?_) strict
  exact .record rfl (funext fun t => by cases t; rfl) (by simp) <|
    .cons SorobanAuthorizedFunction.lossless <| .last h.array

end SorobanAuthorizedInvocation

theorem SorobanCredentials.lossless : SorobanCredentials.schema.Lossless := by
  have haddress : SorobanAddressCredentials.schema.Lossless :=
    .record rfl rfl (by simp) <| .cons ScAddress.lossless <| .cons lossless_i64 <|
      .cons lossless_u32 <| .last ScVal.lossless
  exact .union (fun a => by cases a <;> rfl) (by simp) <| .bare rfl <| .of rfl haddress .nil

theorem SorobanAuthorizationEntry.lossless : SorobanAuthorizationEntry.schema.Lossless :=
  .record rfl rfl (by simp) <| .cons SorobanCredentials.lossless <|
    .last SorobanAuthorizedInvocation.lossless

end LedgerWire
