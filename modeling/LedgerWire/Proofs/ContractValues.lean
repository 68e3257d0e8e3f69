/-
# Which contract values are written

A contract value is judged while it is written, part by part: no rule is judged in advance, and
none but those of the parts. A value is therefore written exactly if every value in it keeps the
rule of its own arm, wherever it stands: in a vector, as a key or a value of a map, or in the
storage of an instance. Trees of approved calls come down to the values that the calls are made
with, the names of the functions, and the assets that contracts are created for.

* `ScVal.KeepsRules`, `SorobanAuthorizedInvocation.KeepsRules` — what is asked of one value or call.
* `ScVal.PartOf`, `SorobanAuthorizedInvocation.PartOf` — the values or calls anywhere in a tree.
* `iff_everywhere` — what goes by levels holds of a tree if each part of it does its share.
* `ScVal.writable_iff`, `SorobanAuthorizedInvocation.writable_iff` — what is written.
* `values_written_iff` — the same of wire forms.
-/

import Mathlib.Logic.Relation
import LedgerWire.Proofs.Types.Contracts
import LedgerWire.Proofs.Types.Writable
import LedgerWire.Proofs.Wire.Verdicts

namespace LedgerWire

open Codec

/-! ### Trees of parts -/

section Everywhere

variable {α : Type} {children : α → List α}

/-- The parts of a tree: itself, its children, theirs, and so on. -/
def PartOf (children : α → List α) : α → α → Prop :=
  Relation.ReflTransGen fun c a => c ∈ children a

/-- **What holds of a tree by levels comes down to all its parts**: if each level adds a condition
on its root to what it asks of the trees below, then it is these conditions that count. -/
theorem iff_everywhere {size : α → Nat} {W P : α → Prop}
    (smaller : ∀ a, ∀ c ∈ children a, size c < size a)
    (level : ∀ a, W a ↔ P a ∧ ∀ c ∈ children a, W c) (a : α) :
    W a ↔ ∀ b, PartOf children b a → P b := by
  -- The children are smaller, so the claim is known of them.
  induction a using (measure size).wf.induction with
  | _ a ih =>
    rw [level a]
    constructor
    · rintro ⟨hroot, hbelow⟩ b hb
      rcases Relation.ReflTransGen.cases_tail hb with rfl | ⟨c, hbc, hc⟩
      · exact hroot
      · exact (ih c (smaller a c hc)).1 (hbelow c hc) b hbc
    · intro h
      refine ⟨h a .refl, fun c hc => (ih c (smaller a c hc)).2 fun b hb => ?_⟩
      exact h b (hb.tail hc)

end Everywhere

/-! ### Rules of single values -/

/-- A number of bytes or items that fits in a word of 32 bits. -/
def FitsWord (n : Nat) : Prop := n < UInt32.size

/-- A count fits a word exactly if it is within the bound that stands for no bound. -/
theorem fitsWord_iff {n : Nat} : FitsWord n ↔ n ≤ Limits.unbounded.toNat := Nat.lt_succ_iff

section Lists

variable {α : Type} {c : Codec α} {kind field : String} {o : Option (List α)}

/-- An optional list is steady as soon as its elements are. -/
theorem steady_optionalArray (hc : ∀ a, (c.put a).Steady) :
    ((c.array Limits.unbounded kind field).optional.put o).Steady :=
  steady_optional fun _ _ => Put.steady_array _ _ fun a _ => hc a

/-- A list that may be absent is written if it fits and its values are written. -/
theorem writable_optionalArray_iff (hc : ∀ a, (c.put a).Steady) :
    (c.array Limits.unbounded kind field).optional.Writable o ↔
      FitsWord (o.getD []).length ∧ ∀ a ∈ o.getD [], c.Writable a := by
  have harray (as : List α) : ((c.array Limits.unbounded kind field).put as).Steady :=
    Put.steady_array _ _ fun a _ => hc a
  rw [writable_optional_iff fun as _ => harray as, fitsWord_iff]
  cases o with
  | none => simp
  | some as =>
      simp only [Option.mem_some_iff, forall_eq', Option.getD_some]
      exact writable_array_iff fun a _ => hc a

end Lists

/-- At most 32 bytes of ASCII letters, digits and underscores. -/
def IsSymbol (s : String) : Prop :=
  s.utf8ByteSize ≤ 32 ∧ ∀ c ∈ s.toList,
    ('A' ≤ c ∧ c ≤ 'Z') ∨ ('a' ≤ c ∧ c ≤ 'z') ∨ ('0' ≤ c ∧ c ≤ '9') ∨ c = '_'

/-- The characters of symbols, range by range. -/
theorem isSymbolChar_iff {c : Char} : isSymbolChar c = true ↔
    ('A' ≤ c ∧ c ≤ 'Z') ∨ ('a' ≤ c ∧ c ≤ 'z') ∨ ('0' ≤ c ∧ c ≤ '9') ∨ c = '_' := by
  have hupper : c.isUpper = true ↔ 'A' ≤ c ∧ c ≤ 'Z' := decide_eq_true_iff
  have hlower : c.isLower = true ↔ 'a' ≤ c ∧ c ≤ 'z' :=
    Bool.and_eq_true_iff.trans (and_congr decide_eq_true_iff decide_eq_true_iff)
  have hdigit : c.isDigit = true ↔ '0' ≤ c ∧ c ≤ '9' :=
    Bool.and_eq_true_iff.trans (and_congr decide_eq_true_iff decide_eq_true_iff)
  have halphanum : c.isAlphanum = (c.isUpper || c.isLower || c.isDigit) := rfl
  rw [isSymbolChar, halphanum]
  simp only [Bool.or_eq_true, hupper, hlower, hdigit, decide_eq_true_iff, or_assoc]

/-- The symbol check passes exactly the symbols: nothing else is asked of the text. -/
theorem checkSymbol_eq_ok_iff {s : String} : checkSymbol s = .ok () ↔ IsSymbol s := by
  have hsymbol : IsSymbol s ↔ symbolViolation? s = none := by
    unfold symbolViolation?
    split
    · rename_i hlong
      exact iff_of_false (fun h => Nat.not_le.2 hlong h.1) nofun
    · rename_i hshort
      have hsize : s.utf8ByteSize ≤ 32 := Nat.not_lt.1 hshort
      rw [IsSymbol, and_iff_right hsize]
      simp [isSymbolChar_iff]
  rw [hsymbol]
  unfold checkSymbol
  cases symbolViolation? s <;> simp

/-- A symbol is written exactly if its text is one. -/
theorem writable_symbol_iff {s : String} : symbolSchema.wire.Writable s ↔ IsSymbol s := by
  rw [← checkSymbol_eq_ok_iff]
  constructor
  · intro h
    have htext := (flat_text Limits.symbol "ScSymbol" "symbol").steady_put s
    exact ((writable_guarded_iff htext (judges_checkSymbol s)).1 h).1
  · intro h
    have hsize : s.utf8ByteSize ≤ Limits.symbol.toNat := (checkSymbol_eq_ok_iff.1 h).1
    have htext : (text Limits.symbol "ScSymbol" "symbol").Writable s := writable_text hsize
    exact .guarded h htext

/-- Every error is written but the host's of the contract type. -/
theorem ScError.writable_iff {e : ScError} :
    ScError.schema.wire.Writable e ↔ ∀ code, e ≠ .host .contract code := by
  have hjudged : e.validate = .ok () ↔ ∀ code, e ≠ .host .contract code := by
    rcases e with code | ⟨_ | _, code⟩ <;> simp [ScError.validate]
  -- The arms hold every error, but for one that the rule keeps out and that adds no bytes.
  have harms : (Codec.union "ScErrorType" (.of 0 .u32 ScError.contract ScError.code? ::
      (ScErrorType.enumeration.all.filter (· ≠ .contract)).map ScError.hostArm)).Writable e := by
    cases e with
    | contract code => exact .behind rfl (writable_u32 code)
    | host type code =>
        have hcode := ScErrorCode.enumeration.writable code
        cases type with
        | contract => exact ⟨_, Put.appends_ok⟩
        | _ => exact .behind rfl hcode
  obtain ⟨_, hp⟩ := harms
  have hguarded := writable_guarded_iff (Put.steady_of_appends hp) (judges_scError e)
  rw [← hjudged]
  exact hguarded.trans (and_iff_left ⟨_, hp⟩)

/-! ### Values without rules -/

theorem UInt128Parts.writable (p : UInt128Parts) : UInt128Parts.schema.wire.Writable p :=
  .imap (.both (writable_u64 _) (writable_u64 _))

theorem Int128Parts.writable (p : Int128Parts) : Int128Parts.schema.wire.Writable p :=
  .imap (.both (writable_i64 _) (writable_u64 _))

theorem UInt256Parts.writable (p : UInt256Parts) : UInt256Parts.schema.wire.Writable p :=
  .imap (.both (writable_u64 _) (.both (writable_u64 _) (.both (writable_u64 _) (writable_u64 _))))

theorem Int256Parts.writable (p : Int256Parts) : Int256Parts.schema.wire.Writable p :=
  .imap (.both (writable_i64 _) (.both (writable_u64 _) (.both (writable_u64 _) (writable_u64 _))))

/-- Nothing is asked of an executable: either kind is written. -/
theorem ContractExecutable.writable (x : ContractExecutable) :
    ContractExecutable.schema.wire.Writable x := by
  cases x with
  | wasm hash => exact .behind rfl hash.writable
  | stellarAsset => exact .behind rfl writable_unit

/-! ### Contract values -/

def ScMapEntry.values (e : ScMapEntry) : List ScVal := [e.key, e.val]

namespace ScVal

/-- The values that stand directly in a value. -/
def children : ScVal → List ScVal
  | .vec items => items.getD []
  | .map entries => (entries.getD []).flatMap ScMapEntry.values
  | .contractInstance i => (i.storage.getD []).flatMap ScMapEntry.values
  | _ => []

/-- What a value itself must keep to, whatever stands in it. -/
def KeepsRules : ScVal → Prop
  | .error e => ∀ code, e ≠ .host .contract code
  | .bytes b => FitsWord b.length
  | .string b => FitsWord b.length
  | .symbol s => IsSymbol s
  | .vec items => FitsWord (items.getD []).length
  | .map entries => FitsWord (entries.getD []).length
  | .contractInstance i => FitsWord (i.storage.getD []).length
  | _ => True

/-- A value is a part of another: that value itself, or a value anywhere in it. -/
def PartOf : ScVal → ScVal → Prop := LedgerWire.PartOf children

/-- Neither side of a map entry nests deeper than the entry. -/
theorem nesting_le_of_mem_values {e : ScMapEntry} {v : ScVal} (h : v ∈ e.values) :
    v.nesting ≤ nestingEntry e := by
  rw [nestingEntry_eq]
  rcases List.mem_pair.1 h with rfl | rfl
  · exact Nat.le_max_left _ _
  · exact Nat.le_max_right _ _

/-- A bound above the nesting of a storage is above that of every value in it. -/
theorem nesting_lt_of_mem_storage {o : Option (List ScMapEntry)} {v : ScVal} {n : Nat}
    (hn : o.elim 0 (deepest nestingEntry) < n)
    (h : v ∈ (o.getD []).flatMap ScMapEntry.values) : v.nesting < n := by
  cases o with
  | none => cases h
  | some entries =>
      obtain ⟨e, he, hv⟩ := List.mem_flatMap.1 h
      have hentry := Nat.le_trans (nesting_le_of_mem_values hv) (Regular.le_deepest he)
      exact Nat.lt_of_le_of_lt hentry hn

/-- **Children nest less than their parent**, which is what the induction on values runs on. -/
theorem nesting_lt_of_mem_children : ∀ v : ScVal, ∀ c ∈ v.children, c.nesting < v.nesting := by
  intro v c hc
  cases v with
  | vec items =>
      cases items with
      | none => cases hc
      | some items => exact nesting_lt_vec hc
  | map entries => exact nesting_lt_of_mem_storage (deepest_lt_map entries) hc
  | contractInstance i => exact nesting_lt_of_mem_storage (deepest_lt_contractInstance i) hc
  | _ => cases hc

/-- A map entry is written when both of its values are. -/
theorem writable_entry_iff {e : ScMapEntry} :
    ScMapEntry.schema.wire.Writable e ↔ ∀ v ∈ e.values, schema.wire.Writable v := by
  have hpair := writable_both_iff (x := (e.key, e.val)) (steady_put regular e.key)
    (steady_put regular e.val)
  refine hpair.trans ?_
  simp [ScMapEntry.values]

/-- A storage is written when its count fits a word and every value in it is. -/
theorem writable_storage_iff {kind field : String} {o : Option (List ScMapEntry)} :
    (ScMapEntry.schema.wire.array Limits.unbounded kind field).optional.Writable o ↔
      FitsWord (o.getD []).length
        ∧ ∀ v ∈ (o.getD []).flatMap ScMapEntry.values, schema.wire.Writable v := by
  rw [writable_optionalArray_iff (steady_put ScMapEntry.regular), List.forall_mem_flatMap]
  simp only [writable_entry_iff]

/-- An instance is written when its storage is; its executable asks nothing. -/
theorem writable_instance_iff {i : ScContractInstance} :
    ScContractInstance.schema.wire.Writable i ↔ FitsWord (i.storage.getD []).length
      ∧ ∀ v ∈ (i.storage.getD []).flatMap ScMapEntry.values, schema.wire.Writable v := by
  have hexecutable := ContractExecutable.flat.steady_put i.executable
  have hstorage : ((ScMapEntry.schema.wire.array Limits.unbounded "ScMap"
      "contract_instance_storage").optional.put i.storage).Steady :=
    steady_optionalArray (steady_put ScMapEntry.regular)
  have hpair := writable_both_iff (x := (i.executable, i.storage)) hexecutable hstorage
  exact hpair.trans ((and_iff_right i.executable.writable).trans writable_storage_iff)

/-- **One level of a value**: it is written if it keeps its own rule and what stands in it is
written. -/
theorem writable_level (v : ScVal) :
    schema.wire.Writable v ↔ v.KeepsRules ∧ ∀ c ∈ v.children, schema.wire.Writable c := by
  have hlevel (v : ScVal) : schema.wire.put v = (layout schema).wire.put v :=
    Schema.recursive_put local_layout v
  -- Most arms hold a payload that is written whatever it is, and no values.
  have hfree {β : Type} {v : ScVal} {d : Codec β} {b : β} {tag : Int32} (hd : d.Writable b)
      (hput : schema.wire.put v = (do Put.i32 tag; d.put b)) (hrules : v.KeepsRules)
      (hleaf : v.children = []) :
      schema.wire.Writable v ↔ v.KeepsRules ∧ ∀ c ∈ v.children, schema.wire.Writable c := by
    rw [hleaf]
    exact iff_of_true (.behind hput hd) ⟨hrules, nofun⟩
  have hfits {n : Nat} : n ≤ Limits.unbounded.toNat ↔ FitsWord n := fitsWord_iff.symm
  cases v with
  | bool b => exact hfree (writable_bool b) (hlevel _) trivial rfl
  | void => exact hfree writable_unit (hlevel _) trivial rfl
  | error e =>
      have herror := writable_behind_iff (hlevel (.error e)) (ScError.flat.steady_put e)
      exact herror.trans (ScError.writable_iff.trans (and_iff_left nofun).symm)
  | u32 n => exact hfree (writable_u32 n) (hlevel _) trivial rfl
  | i32 n => exact hfree (writable_i32 n) (hlevel _) trivial rfl
  | u64 n => exact hfree (writable_u64 n) (hlevel _) trivial rfl
  | i64 n => exact hfree (writable_i64 n) (hlevel _) trivial rfl
  | timepoint seconds => exact hfree (writable_u64 seconds) (hlevel _) trivial rfl
  | duration seconds => exact hfree (writable_u64 seconds) (hlevel _) trivial rfl
  | u128 parts => exact hfree parts.writable (hlevel _) trivial rfl
  | i128 parts => exact hfree parts.writable (hlevel _) trivial rfl
  | u256 parts => exact hfree parts.writable (hlevel _) trivial rfl
  | i256 parts => exact hfree parts.writable (hlevel _) trivial rfl
  | address a => exact hfree a.writable (hlevel _) trivial rfl
  | ledgerKeyContractInstance => exact hfree writable_unit (hlevel _) trivial rfl
  | ledgerKeyNonce nonce => exact hfree (writable_i64 nonce) (hlevel _) trivial rfl
  | bytes b =>
      have hbytes := writable_behind_iff (hlevel (.bytes b)) (Put.steady_bytes ..)
      exact hbytes.trans (writable_bytes_iff.trans (hfits.trans (and_iff_left nofun).symm))
  | string b =>
      have hbytes := writable_behind_iff (hlevel (.string b)) (Put.steady_bytes ..)
      exact hbytes.trans (writable_bytes_iff.trans (hfits.trans (and_iff_left nofun).symm))
  | symbol s =>
      have hsymbol := writable_behind_iff (hlevel (.symbol s)) (flat_symbol.steady_put s)
      exact hsymbol.trans (writable_symbol_iff.trans (and_iff_left nofun).symm)
  | vec items =>
      have hvec := writable_behind_iff (hlevel (.vec items))
        (steady_optionalArray (steady_put regular))
      exact hvec.trans (writable_optionalArray_iff (steady_put regular))
  | map entries =>
      have hmap := writable_behind_iff (hlevel (.map entries))
        (steady_optionalArray (steady_put ScMapEntry.regular))
      exact hmap.trans writable_storage_iff
  | contractInstance i =>
      have hinstance := writable_behind_iff (hlevel (.contractInstance i))
        (steady_put ScContractInstance.regular i)
      exact hinstance.trans writable_instance_iff

/-- **A value is written exactly if every value in it keeps its rule.** -/
theorem writable_iff (v : ScVal) :
    schema.wire.Writable v ↔ ∀ u : ScVal, u.PartOf v → u.KeepsRules :=
  iff_everywhere nesting_lt_of_mem_children writable_level v

end ScVal

/-- A list of arguments that fits, of values that keep their rules everywhere. -/
def ArgumentsKeepRules (args : List ScVal) : Prop :=
  FitsWord args.length ∧ ∀ arg ∈ args, ∀ v : ScVal, v.PartOf arg → v.KeepsRules

/-- Arguments are written when their count fits a word and each of them is. -/
theorem writable_arguments_iff {kind field : String} {args : List ScVal} :
    (ScVal.schema.wire.array Limits.unbounded kind field).Writable args ↔
      ArgumentsKeepRules args := by
  rw [writable_array_iff fun v _ => steady_put ScVal.regular v, ← fitsWord_iff]
  simp only [ScVal.writable_iff]
  rfl

/-! ### Assets -/

/-- A credit is written exactly if its code passes the check of its width. -/
theorem Credit.writable_iff {width : CodeWidth} {c : Credit} :
    (Credit.schema width).wire.Writable c ↔ c.validate width = .ok () := by
  refine ⟨fun h => ?_, Asset.writable_credit⟩
  have hjudged : Judges (c.validate width) := judges_checkCode width c.code
  refine ((writable_guarded_iff ?_ hjudged).1 h).1
  have hcode := Put.steady_of_appends (Put.appends_padded (codeBytes width c.code).toList)
  exact hcode.bind (AccountId.flat.steady_put c.issuer)

/-- An asset is written exactly if it is valid. -/
theorem Asset.writable_iff {a : Asset} : Asset.schema.wire.Writable a ↔ a.validate = .ok () := by
  refine ⟨fun h => ?_, writable⟩
  cases a with
  | native => rfl
  | credit width c =>
      have hcredit := (Credit.flat width).steady_put c
      cases width with
      | four => exact Credit.writable_iff.1 ((writable_behind_iff rfl hcredit).1 h)
      | twelve => exact Credit.writable_iff.1 ((writable_behind_iff rfl hcredit).1 h)

/-! ### Approved calls -/

/-- The asset that a contract is created for is valid. -/
def ContractIdPreimage.KeepsRules : ContractIdPreimage → Prop
  | .fromAddress _ => True
  | .fromAsset asset => asset.validate = .ok ()

/-- A contract id is written exactly if the asset it is taken from, if any, is valid. -/
theorem ContractIdPreimage.writable_iff {p : ContractIdPreimage} :
    ContractIdPreimage.schema.wire.Writable p ↔ p.KeepsRules := by
  cases p with
  | fromAddress p =>
      have hpair : ContractIdAddressPreimage.schema.wire.Writable p :=
        .imap (.both p.address.writable (writable_fixed p.salt))
      exact iff_of_true (.behind rfl hpair) trivial
  | fromAsset asset =>
      refine (writable_behind_iff rfl (Asset.flat.steady_put asset)).trans ?_
      exact Asset.writable_iff

theorem steady_arguments (kind field : String) (args : List ScVal) :
    ((ScVal.schema.wire.array Limits.unbounded kind field).put args).Steady :=
  Put.steady_array _ _ fun v _ => steady_put ScVal.regular v

/-- A call is written when its function is a symbol and its arguments keep the rules. -/
theorem InvokeContractArgs.writable_iff {a : InvokeContractArgs} :
    InvokeContractArgs.schema.wire.Writable a ↔
      IsSymbol a.functionName ∧ ArgumentsKeepRules a.args := by
  have hname := flat_symbol.steady_put a.functionName
  have hargs := steady_arguments "InvokeContractArgs.args" "args" a.args
  have hcall := writable_both_iff (x := (a.contractAddress, a.functionName, a.args))
    (ScAddress.flat.steady_put _) (steady_both hname hargs)
  refine hcall.trans ((and_iff_right a.contractAddress.writable).trans ?_)
  rw [writable_both_iff hname hargs, writable_symbol_iff, writable_arguments_iff]

/-- A creation is written when its id preimage is; nothing else in it can be refused. -/
theorem CreateContractArgs.writable_iff {a : CreateContractArgs} :
    CreateContractArgs.schema.wire.Writable a ↔ a.contractIdPreimage.KeepsRules := by
  have hcreation := writable_both_iff (x := (a.contractIdPreimage, a.executable))
    (ContractIdPreimage.flat.steady_put _) (ContractExecutable.flat.steady_put _)
  refine hcreation.trans ((and_iff_left a.executable.writable).trans ?_)
  exact ContractIdPreimage.writable_iff

/-- The second form of a creation adds the arguments of its constructor. -/
theorem CreateContractArgsV2.writable_iff {a : CreateContractArgsV2} :
    CreateContractArgsV2.schema.wire.Writable a ↔
      a.contractIdPreimage.KeepsRules ∧ ArgumentsKeepRules a.constructorArgs := by
  have hcode := ContractExecutable.flat.steady_put a.executable
  have hargs := steady_arguments "CreateContractArgsV2.constructorArgs" "constructor_args"
    a.constructorArgs
  have hcreation := writable_both_iff
    (x := (a.contractIdPreimage, a.executable, a.constructorArgs))
    (ContractIdPreimage.flat.steady_put _) (steady_both hcode hargs)
  refine hcreation.trans (and_congr ContractIdPreimage.writable_iff ?_)
  rw [writable_both_iff hcode hargs, writable_arguments_iff]
  exact and_iff_right a.executable.writable

/-- What an approved call must keep to: its function's name, its arguments, and the asset that it
creates a contract for. -/
def SorobanAuthorizedFunction.KeepsRules : SorobanAuthorizedFunction → Prop
  | .contractFn a => IsSymbol a.functionName ∧ ArgumentsKeepRules a.args
  | .createContractHostFn a => a.contractIdPreimage.KeepsRules
  | .createContractV2HostFn a =>
      a.contractIdPreimage.KeepsRules ∧ ArgumentsKeepRules a.constructorArgs

/-- **What is authorized** is written exactly if the rules of its kind are kept. -/
theorem SorobanAuthorizedFunction.writable_iff {f : SorobanAuthorizedFunction} :
    SorobanAuthorizedFunction.schema.wire.Writable f ↔ f.KeepsRules := by
  cases f with
  | contractFn a =>
      refine (writable_behind_iff rfl (steady_put InvokeContractArgs.regular a)).trans ?_
      exact InvokeContractArgs.writable_iff
  | createContractHostFn a =>
      refine (writable_behind_iff rfl (CreateContractArgs.flat.steady_put a)).trans ?_
      exact CreateContractArgs.writable_iff
  | createContractV2HostFn a =>
      refine (writable_behind_iff rfl (steady_put CreateContractArgsV2.regular a)).trans ?_
      exact CreateContractArgsV2.writable_iff

namespace SorobanAuthorizedInvocation

/-- What a call itself must keep to, whatever calls it makes. -/
def KeepsRules (t : SorobanAuthorizedInvocation) : Prop :=
  t.function.KeepsRules ∧ FitsWord t.subInvocations.length

/-- A tree of calls is a part of another: that tree itself, or one anywhere below its root. -/
def PartOf : SorobanAuthorizedInvocation → SorobanAuthorizedInvocation → Prop :=
  LedgerWire.PartOf subInvocations

/-- One level of a tree of invocations: the function here, and every tree below. -/
theorem writable_level (t : SorobanAuthorizedInvocation) :
    schema.wire.Writable t ↔ t.KeepsRules ∧ ∀ s ∈ t.subInvocations, schema.wire.Writable s := by
  have hfunction := steady_put SorobanAuthorizedFunction.regular t.function
  have hsubs : ((schema.wire.array Limits.unbounded "SorobanAuthorizedInvocation.subInvocations"
      "sub_invocations").put t.subInvocations).Steady :=
    Put.steady_array _ _ fun s _ => steady_put regular s
  have hpair := writable_both_iff (x := (t.function, t.subInvocations)) hfunction hsubs
  have hlevel : schema.wire.Writable t ↔ (layout schema).wire.Writable t :=
    writable_congr (Schema.recursive_put local_layout t)
  refine hlevel.trans (hpair.trans ?_)
  rw [SorobanAuthorizedFunction.writable_iff, writable_array_iff fun s _ => steady_put regular s,
    ← fitsWord_iff, ← and_assoc]
  rfl

/-- An invocation is deeper than those it makes. -/
theorem depth_lt_of_mem_subInvocations (t : SorobanAuthorizedInvocation) :
    ∀ s ∈ t.subInvocations, s.depth < t.depth := by
  intro s hs
  cases t
  exact depth_lt_of_mem hs

/-- **A tree of calls is written exactly if every call in it keeps its rules.** -/
theorem writable_iff (t : SorobanAuthorizedInvocation) :
    schema.wire.Writable t ↔ ∀ s : SorobanAuthorizedInvocation, s.PartOf t → s.KeepsRules :=
  iff_everywhere depth_lt_of_mem_subInvocations writable_level t

end SorobanAuthorizedInvocation

/-! ### Wire forms -/

/-- **Contract values and trees of approved calls have a wire form exactly if they keep the rules
everywhere.** -/
theorem values_written_iff :
    (∀ v : ScVal, (∃ bytes, ScVal.schema.wire.encode v = .ok bytes) ↔
        ∀ u : ScVal, u.PartOf v → u.KeepsRules)
      ∧ ∀ t : SorobanAuthorizedInvocation,
        (∃ bytes, SorobanAuthorizedInvocation.schema.wire.encode t = .ok bytes) ↔
          ∀ s : SorobanAuthorizedInvocation, s.PartOf t → s.KeepsRules := by
  constructor
  · intro v
    exact (exists_encode_iff (steady_put ScVal.regular v)).trans v.writable_iff
  · intro t
    have hsteady := steady_put SorobanAuthorizedInvocation.regular t
    exact (exists_encode_iff hsteady).trans t.writable_iff

end LedgerWire
