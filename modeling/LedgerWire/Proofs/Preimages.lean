/-
# What hashes bind

Pools, expiries, contracts and signatures are named by hashes of byte strings that the program puts
together from wire forms. Each of these strings says what it is for in its first word, and the rest
is the encoding of what it binds. So two of them are equal only if they were made for the same
purpose from the same things, and two equal hashes of different things are a collision of SHA-256.

* `HashRequest` — the four ways to ask for a hash, with the byte string that is hashed.
* `Bound` — what such a byte string binds.
* `Bound.spell_injective` — a byte string binds one thing only.
* `hashes_bind` — the same of the hashes, up to collisions.
-/

import LedgerWire.Proofs.Types.Contracts
import LedgerWire.Proofs.Types.Entries
import LedgerWire.Proofs.Wire.Whole

namespace LedgerWire

open Bytes (word)

/-! ### First words -/

namespace Codec

variable {α : Type} {c : Codec α} {a : α} {p : Bytes}

/-- What passes its check is encoded as without the check. -/
theorem encode_of_guarded {check : α → Except WireError Unit}
    (h : (c.guarded check).encode a = .ok p) : c.encode a = .ok p := by
  unfold encode guarded at h
  simp only [Attempt.bind_apply] at h
  cases hcheck : check a with
  | error e =>
      rw [hcheck] at h
      cases h
  | ok u =>
      rw [hcheck] at h
      exact h

/-- A discriminant that is written first stands first. -/
theorem first_word_of_encode {tag : Int32} {m : Put} (hm : m.Steady)
    (hput : c.put a = (do Put.i32 tag; m)) (h : c.encode a = .ok p) :
    ∃ q, p = word tag.toUInt32 ++ q := by
  have htag := Put.appends_u32 tag.toUInt32
  have hsteady := (Put.steady_of_appends htag).bind hm
  have hwrites := (encode_eq_ok_iff (c := c) (a := a) (hput ▸ hsteady)).1 h
  unfold Writes at hwrites
  rw [hput] at hwrites
  obtain ⟨q, r, rfl, hq, -⟩ := (Put.Appends.bind_iff (Put.steady_of_appends htag) hm).1 hwrites
  rw [(Put.appends_iff_of_appends htag).1 hq]
  exact ⟨r, rfl⟩

/-- An envelope's number stands in front of what is in it. -/
theorem first_word_of_envelope {number : Int32} (ha : (c.put a).Steady)
    (h : (Codec.i32.both c).encode (number, a) = .ok p) : ∃ q, p = word number.toUInt32 ++ q :=
  first_word_of_encode ha rfl h

end Codec

/-! ### What is bound -/

/-- What the program hashes a byte string for, with all that has a part in the byte string. -/
inductive Bound where
  | pool (parameters : LiquidityPoolParameters)
  | expiry (key : LedgerKey)
  | contract (networkId : Hash) (preimage : ContractIdPreimage)
  | authorization (networkId : Hash) (nonce : Int64) (expiration : UInt32)
      (root : SorobanAuthorizedInvocation)

namespace Bound

variable {b b' : Bound} {p : Bytes}

/-- The byte string. -/
def spell : Bound → Except WireError Bytes
  | .pool parameters => parameters.idPreimage
  | .expiry key => key.ttlPreimage
  | .contract networkId preimage => preimage.hashInput networkId
  | .authorization networkId nonce expiration root =>
      SorobanAuthorizationEntry.payloadWire.encode
        (Limits.authorizationEnvelope, networkId, nonce, expiration, root)

/-- The word that the byte string starts with. -/
def firstWord : Bound → Int32
  | .pool _ => 0
  | .expiry (.contractData _ _ _) => 6
  | .expiry _ => 7
  | .contract _ _ => Limits.contractIdEnvelope
  | .authorization _ _ _ _ => Limits.authorizationEnvelope

/-- An expiry is spelled for the keys of contract data and contract code alone. -/
theorem spell_expiry_eq_ok_iff {key : LedgerKey} :
    (expiry key).spell = .ok p ↔
      ((∃ c k d, key = .contractData c k d) ∨ ∃ h, key = .contractCode h)
        ∧ LedgerKey.schema.wire.encode key = .ok p := by
  cases key with
  | contractData c k d => simp [spell, LedgerKey.ttlPreimage]
  | contractCode h => simp [spell, LedgerKey.ttlPreimage]
  | _ => simp [spell, LedgerKey.ttlPreimage]

/-- Two of the byte strings are wire forms by themselves; the others have an envelope's number in
front. -/
theorem first_word_of_spell (h : b.spell = .ok p) : ∃ q, p = word b.firstWord.toUInt32 ++ q := by
  cases b with
  | pool parameters =>
      have hfields : ((Asset.schema.wire.both (Asset.schema.wire.both Codec.i32)).put
          (parameters.assetA, parameters.assetB, parameters.fee)).Steady :=
        (Codec.Flat.both Asset.flat (.both Asset.flat Codec.flat_i32)).steady_put _
      exact Codec.first_word_of_encode hfields rfl (Codec.encode_of_guarded h)
  -- Two kinds of keys have an expiry, and each spells the number of its own kind first.
  | expiry key =>
      obtain ⟨⟨c, k, d, rfl⟩ | ⟨hash, rfl⟩, hkey⟩ := spell_expiry_eq_ok_iff.1 h
      · have hvalue : ((ScAddress.schema.wire.both (ScVal.schema.wire.both
            ContractDataDurability.schema.wire)).put (c, k, d)).Steady :=
          (Codec.Regular.behind ScAddress.flat <|
            .before ContractDataDurability.flat (ScVal.regular k.nesting)).steady (Nat.le_refl _)
        exact Codec.first_word_of_encode hvalue rfl hkey
      · have hhash := Hash.flat.steady_put hash
        exact Codec.first_word_of_encode hhash rfl hkey
  | contract networkId preimage =>
      have hrest := (Codec.Flat.both Hash.flat ContractIdPreimage.flat).steady_put
        (networkId, preimage)
      exact Codec.first_word_of_envelope hrest h
  | authorization networkId nonce expiration root =>
      have hrest := (Codec.Regular.behind Hash.flat <| .behind Codec.flat_i64 <|
        .behind Codec.flat_u32 <| SorobanAuthorizedInvocation.regular root.nesting).steady
          (a := (networkId, nonce, expiration, root)) (Nat.le_refl _)
      exact Codec.first_word_of_envelope hrest h

/-- **A byte string binds one thing only.** Different purposes start with different words, and what
stands behind the word is the encoding of one value. -/
theorem spell_injective (h : b.spell = .ok p) (h' : b'.spell = .ok p) : b = b' := by
  obtain ⟨q, hq⟩ := first_word_of_spell h
  obtain ⟨q', hq'⟩ := first_word_of_spell h'
  have hword : b.firstWord.toUInt32.toInt32 = b'.firstWord.toUInt32.toInt32 := by
    rw [hq] at hq'
    rw [Bytes.word_eq_of_append hq']
  rw [Int32.toInt32_toUInt32, Int32.toInt32_toUInt32] at hword
  -- The words of different kinds are different numbers, so only equal kinds are left to compare.
  cases b with
  | pool parameters =>
      cases b' with
      | pool parameters' =>
          exact congrArg pool (Codec.Regular.encode_injective LiquidityPoolParameters.flat h h')
      | expiry key => cases key <;> cases hword
      | contract _ _ => cases hword
      | authorization _ _ _ _ => cases hword
  | expiry key =>
      cases b' with
      | expiry key' =>
          have hkey := (spell_expiry_eq_ok_iff.1 h).2
          have hkey' := (spell_expiry_eq_ok_iff.1 h').2
          exact congrArg expiry (Codec.Regular.encode_injective LedgerKey.regular hkey hkey')
      | pool _ => cases key <;> cases hword
      | contract _ _ => cases key <;> cases hword
      | authorization _ _ _ _ => cases key <;> cases hword
  | contract networkId preimage =>
      cases b' with
      | contract networkId' preimage' =>
          have hflat := Codec.Flat.both Codec.flat_i32 (.both Hash.flat ContractIdPreimage.flat)
          cases Codec.Regular.encode_injective hflat h h'
          rfl
      | expiry key => cases key <;> cases hword
      | pool _ => cases hword
      | authorization _ _ _ _ => cases hword
  | authorization networkId nonce expiration root =>
      cases b' with
      | authorization networkId' nonce' expiration' root' =>
          have hregular (k : Nat) := Codec.Regular.behind Codec.flat_i32 <| .behind Hash.flat <|
            .behind Codec.flat_i64 <| .behind Codec.flat_u32 <|
              SorobanAuthorizedInvocation.regular k
          cases Codec.Regular.encode_injective hregular h h'
          rfl
      | expiry key => cases key <;> cases hword
      | pool _ => cases hword
      | contract _ _ => cases hword

end Bound

/-! ### Requests -/

/-- A request for a hash: the name of a pool, the key of an expiry, the name of a contract on a
network, or what the credential of an authorization signs there. -/
inductive HashRequest where
  | poolId (parameters : LiquidityPoolParameters)
  | ttlKey (key : LedgerKey)
  | contractId (preimage : ContractIdPreimage) (network : Network)
  | signaturePayload (entry : SorobanAuthorizationEntry) (network : Network)

namespace HashRequest

variable {x y : HashRequest} {p : Bytes} {h : Hash}

/-- The byte string that is hashed. -/
def preimage : HashRequest → Except WireError Bytes
  | .poolId parameters => parameters.idPreimage
  | .ttlKey key => key.ttlPreimage
  | .contractId preimage network => preimage.hashInput network.id
  | .signaturePayload entry network => entry.payloadPreimage network.id

/-- What the request binds. Of a credential these are its nonce and expiration; one that signs
nothing binds nothing. -/
def bound? : HashRequest → Option Bound
  | .poolId parameters => some (.pool parameters)
  | .ttlKey key => some (.expiry key)
  | .contractId preimage network => some (.contract network.id preimage)
  | .signaturePayload entry network =>
      match entry.credentials with
      | .sourceAccount => none
      | .address c =>
          some (.authorization network.id c.nonce c.signatureExpirationLedger entry.rootInvocation)

/-- The program answers the request with this hash, in the type that the answer has. -/
def Yields : HashRequest → Hash → Prop
  | .poolId parameters, h => parameters.poolId = .ok ⟨h⟩
  | .ttlKey key, h => key.ttlKey = .ok (.ttl h)
  | .contractId preimage network, h => preimage.contractId network = .ok ⟨h⟩
  | .signaturePayload entry network, h => entry.signaturePayload network = .ok h

/-- **What is hashed is made from what is bound, and from nothing else.** -/
theorem preimage_eq_ok_iff : x.preimage = .ok p ↔ ∃ b, x.bound? = some b ∧ b.spell = .ok p := by
  cases x with
  | poolId parameters => simp [preimage, bound?, Bound.spell]
  | ttlKey key => simp [preimage, bound?, Bound.spell]
  | contractId preimage network => simp [HashRequest.preimage, bound?, Bound.spell]
  | signaturePayload entry network =>
      obtain ⟨credentials, root⟩ := entry
      cases credentials with
      | sourceAccount => simp [preimage, bound?, SorobanAuthorizationEntry.payloadPreimage]
      | address c => simp [preimage, bound?, Bound.spell, SorobanAuthorizationEntry.payloadPreimage]

/-- A hash comes from a preimage that was spelled, and from nothing else. -/
private theorem map_eq_ok_iff {α : Type} {wrap : Hash → α} (hwrap : Function.Injective wrap)
    {r : Except WireError Bytes} :
    (r.map fun bytes => wrap (sha256 bytes)) = .ok (wrap h) ↔ ∃ p, r = .ok p ∧ sha256 p = h := by
  cases r with
  | error e => simp [Except.map]
  | ok p => simp [Except.map, hwrap.eq_iff]

/-- **The answer is the hash of the byte string.** -/
theorem yields_iff : x.Yields h ↔ ∃ p, x.preimage = .ok p ∧ sha256 p = h := by
  cases x with
  | poolId parameters => exact map_eq_ok_iff fun _ _ => PoolId.mk.inj
  | ttlKey key => exact map_eq_ok_iff fun _ _ => LedgerKey.ttl.inj
  | contractId preimage network => exact map_eq_ok_iff fun _ _ => ContractId.mk.inj
  | signaturePayload entry network => exact map_eq_ok_iff Function.injective_id

end HashRequest

/-- **Hashes bind what they are made from.** Two requests have the same byte string hashed only if
they are of one kind and bind the same things: the parameters of the pool; the key; the network's id
and the preimage; the network's id, the nonce, the expiration and the root of the tree. The answers
are the hashes of these byte strings, so that equal answers mean equal things or two different byte
strings with one hash. The address and the signature of a credential have no part in it. -/
theorem hashes_bind :
    (∀ (x y : HashRequest) p, x.preimage = .ok p → y.preimage = .ok p →
        ∃ b, x.bound? = some b ∧ y.bound? = some b)
      ∧ (∀ (x : HashRequest) h, x.Yields h ↔ ∃ p, x.preimage = .ok p ∧ sha256 p = h)
      ∧ (∀ (x y : HashRequest) h, x.Yields h → y.Yields h →
        (∃ b, x.bound? = some b ∧ y.bound? = some b)
          ∨ ∃ p q, x.preimage = .ok p ∧ y.preimage = .ok q ∧ p ≠ q ∧ sha256 p = sha256 q)
      ∧ ∀ root network nonce expiration address address' signature signature',
        SorobanAuthorizationEntry.signaturePayload
            ⟨.address ⟨address, nonce, expiration, signature⟩, root⟩ network
          = SorobanAuthorizationEntry.signaturePayload
            ⟨.address ⟨address', nonce, expiration, signature'⟩, root⟩ network := by
  have hbinds : ∀ (x y : HashRequest) p, x.preimage = .ok p → y.preimage = .ok p →
      ∃ b, x.bound? = some b ∧ y.bound? = some b := by
    intro x y p hx hy
    obtain ⟨b, hb, hspell⟩ := HashRequest.preimage_eq_ok_iff.1 hx
    obtain ⟨b', hb', hspell'⟩ := HashRequest.preimage_eq_ok_iff.1 hy
    obtain rfl := Bound.spell_injective hspell hspell'
    exact ⟨b, hb, hb'⟩
  refine ⟨hbinds, fun x h => HashRequest.yields_iff, fun x y h hx hy => ?_, ?_⟩
  · obtain ⟨p, hp, hhash⟩ := HashRequest.yields_iff.1 hx
    obtain ⟨q, hq, hhash'⟩ := HashRequest.yields_iff.1 hy
    -- Equal preimages bind the same; different ones collide.
    by_cases heq : p = q
    · subst heq
      exact .inl (hbinds x y p hp hq)
    · exact .inr ⟨p, q, hp, hq, heq, hhash.trans hhash'.symm⟩
  · intros
    rfl

/-- An account and a contract that approve the same call have the same byte string to sign. It binds
the network, the nonce, the expiration and the call, and not who approves it. -/
theorem hashes_bind_twoSigners :
    let call : SorobanAuthorizedInvocation := .leaf (.contractFn ⟨.contract ⟨.zero⟩, "f", []⟩)
    let signedBy (signer : ScAddress) : HashRequest :=
      .signaturePayload ⟨.address ⟨signer, 7, 100, .void⟩, call⟩ (.custom "")
    let byAccount := signedBy (.account ⟨Vector.replicate 32 0⟩)
    let byContract := signedBy (.contract ⟨.zero⟩)
    (∃ p, byAccount.preimage = .ok p ∧ byContract.preimage = .ok p)
      ∧ ∃ b, byAccount.bound? = some b ∧ byContract.bound? = some b := by
  intro call signedBy byAccount byContract
  have hwritten : byAccount.preimage.toBool = true := by decide +kernel
  cases hpreimage : byAccount.preimage with
  | error e =>
      rw [hpreimage] at hwritten
      cases hwritten
  | ok p =>
      have hpreimage' : byContract.preimage = .ok p := hpreimage
      exact ⟨⟨p, rfl, hpreimage'⟩, hashes_bind.1 _ _ _ hpreimage hpreimage'⟩

end LedgerWire
