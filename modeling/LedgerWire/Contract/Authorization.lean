/-
# Authorization

A contract call that touches what belongs to others carries, for each of them, a credential and the
tree of calls that the credential approves.

* `SorobanAuthorizedInvocation` — a tree of approved calls; `depth` is its height.
* `SorobanAuthorizationEntry` — a credential with its tree.
* `SorobanAuthorizationEntry.signaturePayload` — the hash that an address credential signs.
* `SorobanAuthorizationEntry.sign` — puts an expiration and a signature into such a credential.
-/

import LedgerWire.Contract.HostFunction
import LedgerWire.Crypto.KeyPair

namespace LedgerWire

open Schema

/-! ### Approved calls -/

/-- What an authorization approves. -/
inductive SorobanAuthorizedFunction where
  | contractFn (args : InvokeContractArgs)
  | createContractHostFn (args : CreateContractArgs)
  | createContractV2HostFn (args : CreateContractArgsV2)
  deriving DecidableEq, Repr

def SorobanAuthorizedFunction.schema : Schema SorobanAuthorizedFunction :=
  .union "SorobanAuthorizedFunctionType"
    [ .of 0 "contract_fn" InvokeContractArgs.schema .contractFn fun
        | .contractFn a => some a
        | _ => none,
      .of 1 "create_contract_host_fn" CreateContractArgs.schema .createContractHostFn fun
        | .createContractHostFn a => some a
        | _ => none,
      .of 2 "create_contract_v2_host_fn" CreateContractArgsV2.schema .createContractV2HostFn fun
        | .createContractV2HostFn a => some a
        | _ => none ]

/-- A call that is approved, with the calls that it may make. -/
inductive SorobanAuthorizedInvocation where
  | mk (function : SorobanAuthorizedFunction)
      (subInvocations : List SorobanAuthorizedInvocation)
  deriving Repr

namespace SorobanAuthorizedInvocation

def function : SorobanAuthorizedInvocation → SorobanAuthorizedFunction
  | .mk function _ => function

def subInvocations : SorobanAuthorizedInvocation → List SorobanAuthorizedInvocation
  | .mk _ subs => subs

/-- A call that makes no others. -/
def leaf (function : SorobanAuthorizedFunction) : SorobanAuthorizedInvocation := .mk function []

def withSubInvocation (t child : SorobanAuthorizedInvocation) : SorobanAuthorizedInvocation :=
  .mk t.function (t.subInvocations ++ [child])

mutual

/-- The number of calls on the longest way from the root to a leaf. -/
def depth : SorobanAuthorizedInvocation → Nat
  | .mk _ subs => depthAll subs + 1

def depthAll : List SorobanAuthorizedInvocation → Nat
  | [] => 0
  | t :: rest => max (depth t) (depthAll rest)

end

mutual

def beq : SorobanAuthorizedInvocation → SorobanAuthorizedInvocation → Bool
  | .mk f subs, .mk f' subs' => f == f' && beqAll subs subs'

def beqAll : List SorobanAuthorizedInvocation → List SorobanAuthorizedInvocation → Bool
  | [], [] => true
  | a :: as, b :: bs => beq a b && beqAll as bs
  | _, _ => false

end

mutual

/-- Two trees are the same exactly when they are equal. -/
theorem beq_iff_eq : ∀ a b : SorobanAuthorizedInvocation, beq a b = true ↔ a = b
  | .mk f subs, .mk f' subs' => by simp [beq, beqAll_iff_eq subs]

/-- Two lists of trees are the same exactly when they are equal. -/
theorem beqAll_iff_eq : ∀ as bs : List SorobanAuthorizedInvocation, beqAll as bs = true ↔ as = bs
  | [], bs => by cases bs <;> simp [beqAll]
  | a :: as, bs => by cases bs <;> simp [beqAll, beq_iff_eq a, beqAll_iff_eq as]

end

instance : DecidableEq SorobanAuthorizedInvocation := fun a b =>
  decidable_of_iff _ (beq_iff_eq a b)

/-- One level of a tree, over a schema for the trees under it. -/
def layout (self : Schema SorobanAuthorizedInvocation) : Schema SorobanAuthorizedInvocation :=
  (field "function" SorobanAuthorizedFunction.schema
    >> field "sub_invocations" (.array Limits.unbounded
        "SorobanAuthorizedInvocation.subInvocations" "sub_invocations" self)).record
    (fun (function, subs) => .mk function subs) fun t => (t.function, t.subInvocations)

def schema : Schema SorobanAuthorizedInvocation := .recursive depth layout

end SorobanAuthorizedInvocation

/-! ### Credentials -/

/-- An address that approves a tree until a ledger, with its signature. -/
structure SorobanAddressCredentials where
  address : ScAddress
  nonce : Int64
  signatureExpirationLedger : UInt32
  signature : ScVal
  deriving DecidableEq, Repr

def SorobanAddressCredentials.schema : Schema SorobanAddressCredentials :=
  (field "address" ScAddress.schema >> field "nonce" .i64
    >> field "signature_expiration_ledger" .u32 >> field "signature" ScVal.schema).record
    (fun (address, nonce, signatureExpirationLedger, signature) =>
      ⟨address, nonce, signatureExpirationLedger, signature⟩)
    fun c => (c.address, c.nonce, c.signatureExpirationLedger, c.signature)

/-- Who approves: the source of the transaction, or an address with a signature of its own. -/
inductive SorobanCredentials where
  | sourceAccount
  | address (credentials : SorobanAddressCredentials)
  deriving DecidableEq, Repr

def SorobanCredentials.schema : Schema SorobanCredentials :=
  .union "SorobanCredentialsType"
    [ .bare 0 "source_account" .sourceAccount (· matches .sourceAccount),
      .of 1 "address" SorobanAddressCredentials.schema .address fun
        | .address c => some c
        | _ => none ]

/-! ### Entries -/

/-- A credential with the tree that it approves. -/
structure SorobanAuthorizationEntry where
  credentials : SorobanCredentials
  rootInvocation : SorobanAuthorizedInvocation
  deriving DecidableEq, Repr

namespace SorobanAuthorizationEntry

def schema : Schema SorobanAuthorizationEntry :=
  (field "credentials" SorobanCredentials.schema
    >> field "root_invocation" SorobanAuthorizedInvocation.schema).record
    (fun (credentials, rootInvocation) => ⟨credentials, rootInvocation⟩)
    fun e => (e.credentials, e.rootInvocation)

/-- The wire form of what a credential signs. -/
def payloadWire : Codec (Int32 × Hash × Int64 × UInt32 × SorobanAuthorizedInvocation) :=
  Codec.i32.both <| Hash.wire.both <| Codec.i64.both <| Codec.u32.both
    SorobanAuthorizedInvocation.schema.wire

/-- What a credential signs the hash of: the purpose, the network's id, the credential's nonce and
expiration, and the tree. The credential's address and signature have no part in it. -/
def payloadPreimage (e : SorobanAuthorizationEntry) (networkId : Hash) : Except WireError Bytes :=
  match e.credentials with
  | .sourceAccount => .error (.validation "credentials" .nothingToSign)
  | .address c =>
      payloadWire.encode
        (Limits.authorizationEnvelope, networkId, c.nonce, c.signatureExpirationLedger,
          e.rootInvocation)

/-- The hash that the credential signs. -/
def signaturePayload (e : SorobanAuthorizationEntry) (network : Network) : Except WireError Hash :=
  (e.payloadPreimage network.id).map sha256

/-- A signature as accounts check it: a vector of one map with the key and the signature. -/
def signatureValue (publicKey signature : Bytes) : ScVal :=
  .ofItems [.ofEntries
    [⟨.symbol "public_key", .bytes publicKey⟩, ⟨.symbol "signature", .bytes signature⟩]]

/-- The entry with another expiration, if its credential has one. -/
def withExpiration (e : SorobanAuthorizationEntry) (ledger : UInt32) : SorobanAuthorizationEntry :=
  match e.credentials with
  | .sourceAccount => e
  | .address c => { e with credentials := .address { c with signatureExpirationLedger := ledger } }

/-- The entry with another signature, if its credential has one. -/
def withSignature (e : SorobanAuthorizationEntry) (signature : ScVal) :
    SorobanAuthorizationEntry :=
  match e.credentials with
  | .sourceAccount => e
  | .address c => { e with credentials := .address { c with signature := signature } }

/-- Signs with an account's key: the verdict, and the entry afterwards. The expiration is set
before the payload is hashed, and stays set when that fails. -/
def sign (e : SorobanAuthorizationEntry) (key : KeyPair) (expiration : UInt32)
    (network : Network) : Except WireError Unit × SorobanAuthorizationEntry :=
  match e.credentials with
  | .sourceAccount => (.error (.validation "credentials" .notSignable), e)
  | .address _ =>
      -- The expiration is part of what is signed, so it is set first.
      let dated := e.withExpiration expiration
      match dated.signaturePayload network with
      | .error fault => (.error fault, dated)
      | .ok payload =>
          let signature := signatureValue key.accountId.toList (key.sign payload.toList)
          (.ok (), dated.withSignature signature)

end SorobanAuthorizationEntry

end LedgerWire
