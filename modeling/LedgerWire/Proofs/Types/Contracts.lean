/-
# Calls and authorizations are regular

A tree of approved calls contains calls, and each call contains the values that it is made with.
Reading counts both on one way: the arguments of a call stand one level below the call.

* `SorobanAuthorizedInvocation.nesting` — the calls and values on the longest way into a tree.
* `SorobanAuthorizedInvocation.regular` — it is what reading counts. Writing goes by the height of
  the tree alone (`local_layout`), which its schema is recursive over.
-/

import LedgerWire.Proofs.Types.Assets
import LedgerWire.Proofs.Types.Values
import LedgerWire.Contract.Authorization

namespace LedgerWire

open Codec
open Get (Agree)

/-! ### Requests to the host -/

theorem ContractIdAddressPreimage.flat : ContractIdAddressPreimage.schema.wire.Flat :=
  .imap rfl rfl <| .both ScAddress.flat (flat_fixed 32)

theorem ContractIdPreimage.flat : ContractIdPreimage.schema.wire.Flat :=
  .union (fun a => by cases a <;> rfl) rfl fun k =>
    .of rfl (ContractIdAddressPreimage.flat k) <| .of rfl (Asset.flat k) .nil

theorem CreateContractArgs.flat : CreateContractArgs.schema.wire.Flat :=
  .imap rfl rfl <| .both ContractIdPreimage.flat ContractExecutable.flat

def InvokeContractArgs.nesting (a : InvokeContractArgs) : Nat := deepest ScVal.nesting a.args

theorem InvokeContractArgs.regular (k : Nat) :
    Regular k InvokeContractArgs.schema.wire InvokeContractArgs.nesting :=
  .imap rfl rfl <| .behind ScAddress.flat <| .behind flat_symbol <|
    (ScVal.regular k).array _ _ _ ScVal.hungry

def CreateContractArgsV2.nesting (a : CreateContractArgsV2) : Nat :=
  deepest ScVal.nesting a.constructorArgs

theorem CreateContractArgsV2.regular (k : Nat) :
    Regular k CreateContractArgsV2.schema.wire CreateContractArgsV2.nesting :=
  .imap rfl rfl <| .behind ContractIdPreimage.flat <| .behind ContractExecutable.flat <|
    (ScVal.regular k).array _ _ _ ScVal.hungry

def HostFunction.nesting : HostFunction → Nat
  | .invokeContract a => a.nesting
  | .createContractV2 a => a.nesting
  | .createContract _ | .uploadContractWasm _ => 0

theorem HostFunction.regular (k : Nat) : Regular k HostFunction.schema.wire HostFunction.nesting :=
  .union_of_parts (fun a => by cases a <;> rfl) rfl <|
    .of rfl (InvokeContractArgs.regular k) <| .of rfl (CreateContractArgs.flat k) <|
    .of rfl (.bytes _ _ _) <| .of rfl (CreateContractArgsV2.regular k) .nil

/-! ### Approved calls -/

def SorobanAuthorizedFunction.nesting : SorobanAuthorizedFunction → Nat
  | .contractFn a => a.nesting
  | .createContractV2HostFn a => a.nesting
  | .createContractHostFn _ => 0

theorem SorobanAuthorizedFunction.regular (k : Nat) :
    Regular k SorobanAuthorizedFunction.schema.wire SorobanAuthorizedFunction.nesting :=
  .union_of_parts (fun a => by cases a <;> rfl) rfl <|
    .of rfl (InvokeContractArgs.regular k) <| .of rfl (CreateContractArgs.flat k) <|
    .of rfl (CreateContractArgsV2.regular k) .nil

namespace SorobanAuthorizedInvocation

mutual

/-- The number of calls and values on the longest way into the tree; the arguments of a call count
below it. -/
def nesting : SorobanAuthorizedInvocation → Nat
  | .mk function subs => max function.nesting (nestingAll subs) + 1

/-- The nesting of the deepest of several trees. -/
def nestingAll : List SorobanAuthorizedInvocation → Nat
  | [] => 0
  | t :: rest => max (nesting t) (nestingAll rest)

end

/-- The mutual recursion on lists of invocations is the nesting of the deepest. -/
theorem nestingAll_eq (ts : List SorobanAuthorizedInvocation) :
    nestingAll ts = deepest nesting ts := by
  induction ts with
  | nil => rw [nestingAll, deepest]
  | cons t rest ih => rw [nestingAll, deepest, ih]

/-- An invocation alone is one level. -/
theorem nesting_pos (t : SorobanAuthorizedInvocation) : 0 < t.nesting := by
  cases t
  rw [nesting]
  omega

/-- The mutual recursion on lists of invocations is the depth of the deepest. -/
theorem depthAll_eq (ts : List SorobanAuthorizedInvocation) : depthAll ts = deepest depth ts := by
  induction ts with
  | nil => rw [depthAll, deepest]
  | cons t rest ih => rw [depthAll, deepest, ih]

/-- What an invocation makes is less deep than it. -/
theorem depth_lt_of_mem {function : SorobanAuthorizedFunction}
    {t : SorobanAuthorizedInvocation} {subs : List SorobanAuthorizedInvocation} (ht : t ∈ subs) :
    depth t < depth (.mk function subs) := by
  have hle := Regular.le_deepest (f := depth) ht
  rw [depth, depthAll_eq]
  omega

mutual

/-- The height of a tree leaves out what its calls are made with. -/
theorem depth_le_nesting : ∀ t : SorobanAuthorizedInvocation, t.depth ≤ t.nesting
  | .mk function subs => by
      have hsubs := depthAll_le_nestingAll subs
      rw [depth, nesting]
      omega

/-- The nesting counts the arguments as well, so the depth is no more than it. -/
theorem depthAll_le_nestingAll : ∀ ts, depthAll ts ≤ nestingAll ts
  | [] => Nat.le_refl 0
  | t :: rest => by
      have ht := depth_le_nesting t
      have hrest := depthAll_le_nestingAll rest
      rw [depthAll, nestingAll]
      omega

end

/-- **The layout of invocations is local**: a level looks at less deep invocations only. -/
theorem local_layout : Schema.Local depth layout where
  own_pos t := by
    cases t
    rw [depth]
    omega
  put_congr {self self' t} h := by
    obtain ⟨function, subs⟩ := t
    have hsubs : ∀ s ∈ subs, self.wire.put s = self'.wire.put s :=
      fun s hs => h s (depth_lt_of_mem hs)
    exact congrArg (SorobanAuthorizedFunction.schema.wire.put function >>= fun _ => ·)
      (Put.array_congr _ _ hsubs)
  get_congr {self self' room} h := by
    have hfunction := (SorobanAuthorizedFunction.regular room).aligned (Nat.le_refl _)
    exact agree_imap (agree_both hfunction.toFramed.agree (h.array _ _))

/-- A tree is one level of the layout over trees, read one level further in. -/
theorem wire_eq : schema.wire = (layout schema).wire.nested := Schema.recursive_wire local_layout

theorem hungry : schema.wire.get.Hungry := by
  rw [wire_eq]
  exact Get.Hungry.nested (((Get.hungry_i32.bind _).bind _).bind _)

/-- **The nesting of a tree is what reading counts.** -/
theorem regular (k : Nat) : Regular k schema.wire nesting := by
  refine Schema.regular_recursive local_layout nesting_pos (fun k h => ?_) k
  have hlayout : Regular k (layout schema).wire fun t =>
      max t.function.nesting (deepest nesting t.subInvocations) :=
    .imap rfl (funext fun t => by cases t; rfl) ((SorobanAuthorizedFunction.regular k).both
      (h.array Limits.unbounded "SorobanAuthorizedInvocation.subInvocations" "sub_invocations"
        hungry))
  refine hlayout.congr fun t => ?_
  obtain ⟨function, subs⟩ := t
  rw [nesting, nestingAll_eq]
  rfl

end SorobanAuthorizedInvocation

/-! ### Credentials and entries -/

def SorobanAddressCredentials.nesting (c : SorobanAddressCredentials) : Nat := c.signature.nesting

theorem SorobanAddressCredentials.regular (k : Nat) :
    Regular k SorobanAddressCredentials.schema.wire SorobanAddressCredentials.nesting :=
  .imap rfl rfl <| .behind ScAddress.flat <| .behind flat_i64 <| .behind flat_u32 <|
    ScVal.regular k

def SorobanCredentials.nesting : SorobanCredentials → Nat
  | .sourceAccount => 0
  | .address c => c.nesting

theorem SorobanCredentials.regular (k : Nat) :
    Regular k SorobanCredentials.schema.wire SorobanCredentials.nesting :=
  .union_of_parts (fun a => by cases a <;> rfl) rfl <|
    .bare rfl rfl <| .of rfl (SorobanAddressCredentials.regular k) .nil

namespace SorobanAuthorizationEntry

def nesting (e : SorobanAuthorizationEntry) : Nat :=
  max e.credentials.nesting e.rootInvocation.nesting

theorem regular (k : Nat) : Regular k schema.wire nesting :=
  .imap rfl rfl ((SorobanCredentials.regular k).both (SorobanAuthorizedInvocation.regular k))

theorem hungry : schema.wire.get.Hungry := ((Get.hungry_i32.bind _).bind _).bind _

end SorobanAuthorizationEntry

end LedgerWire
