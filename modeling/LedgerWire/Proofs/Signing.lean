/-
# Signing authorization entries

Signing puts an expiration into a credential, hashes what is to be signed, and puts the signature
in. The hash covers the expiration and not the signature, so an entry that is signed carries a
signature of its own payload, and signing it again makes no difference. The hash is the step that
can fail, and it stands between the two others: an entry that could not be signed has its new
expiration with its old signature.

* `signaturePayload_withSignature`, `signaturePayload_eq_error_iff` — what the hash depends on, and
  when there is none.
* `sign_eq_ok_iff`, `sign_eq_error_iff` — what signing comes to.
* `signed_entry` — the signed entry, part by part.
* `unsigned_entry` — what is left of an entry that could not be signed.
-/

import LedgerWire.Proofs.Types.Contracts

namespace LedgerWire

/-! ### Keys -/

namespace Ed25519

/-- An encoded point has 32 bytes. -/
theorem Point.length_encode (P : Point) : P.encode.length = 32 := Bytes.length_littleEndian 32 _

theorem length_publicKey (seed : Bytes) : (publicKey seed).length = 32 := Point.length_encode _

/-- A signature is a point and a scalar. -/
theorem length_sign (seed message : Bytes) : (sign seed message).length = 64 := by
  unfold sign
  rw [List.length_append, Point.length_encode, Bytes.length_littleEndian]

end Ed25519

namespace KeyPair

/-- The account of a key pair is its public key. -/
theorem toList_accountId (key : KeyPair) :
    key.accountId.toList = Ed25519.publicKey key.seed.toList := by
  have hlength := Ed25519.length_publicKey key.seed.toList
  unfold AccountId.toList accountId Bytes.fixed?
  rw [dif_pos hlength]
  rfl

/-- A signature is a point and a number, of 32 bytes each. -/
theorem length_sign (key : KeyPair) (message : Bytes) : (key.sign message).length = 64 :=
  Ed25519.length_sign key.seed.toList message

end KeyPair

namespace SorobanAuthorizationEntry

variable {e e' : SorobanAuthorizationEntry} {key : KeyPair} {expiration : UInt32}
  {network : Network} {fault : WireError}

/-! ### Payloads -/

/-- Only the tree of what is signed can break a rule of the wire form. -/
theorem payloadWire_encode_eq_error_iff (purpose : Int32) (networkId : Hash) (nonce : Int64)
    (expiration : UInt32) (root : SorobanAuthorizedInvocation) :
    payloadWire.encode (purpose, networkId, nonce, expiration, root) = .error fault
      ↔ SorobanAuthorizedInvocation.schema.wire.encode root = .error fault := by
  obtain ⟨result, p, hroot, -⟩ :=
    (SorobanAuthorizedInvocation.regular root.nesting).steady (a := root) (Nat.le_refl _)
  have hall := (Put.appends_u32 purpose.toUInt32).bind <|
    (Put.appends_padded networkId.bytes.toList).bind <|
    (Put.appends_u64 nonce.toUInt64).bind <| (Put.appends_u32 expiration).bind hroot
  have hpayload :
      (payloadWire.put (purpose, networkId, nonce, expiration, root)).Appends result _ := hall
  rw [Codec.encode_of_appends hpayload, Codec.encode_of_appends hroot]
  cases result with
  | ok u => exact iff_of_false nofun nofun
  | error fault' => exact Iff.rfl

/-- The payload of an address is the hash of its preimage, nonce and expiration included. -/
theorem signaturePayload_address {c : SorobanAddressCredentials} (h : e.credentials = .address c)
    (network : Network) :
    e.signaturePayload network = (payloadWire.encode (Limits.authorizationEnvelope, network.id,
      c.nonce, c.signatureExpirationLedger, e.rootInvocation)).map sha256 := by
  unfold signaturePayload payloadPreimage
  rw [h]

/-- The payload of an address fails over a broken rule in the invocation, and over nothing else. -/
theorem signaturePayload_eq_error_iff {c : SorobanAddressCredentials}
    (h : e.credentials = .address c) :
    e.signaturePayload network = .error fault
      ↔ SorobanAuthorizedInvocation.schema.wire.encode e.rootInvocation = .error fault := by
  refine Iff.trans ?_ (payloadWire_encode_eq_error_iff Limits.authorizationEnvelope network.id
    c.nonce c.signatureExpirationLedger e.rootInvocation)
  rw [signaturePayload_address h]
  cases payloadWire.encode (Limits.authorizationEnvelope, network.id, c.nonce,
      c.signatureExpirationLedger, e.rootInvocation) with
  | ok preimage => exact iff_of_false nofun nofun
  | error fault' => simp [Except.map]

/-- The signature has no part in what is signed. -/
theorem signaturePayload_withSignature (e : SorobanAuthorizationEntry) (signature : ScVal)
    (network : Network) :
    (e.withSignature signature).signaturePayload network = e.signaturePayload network := by
  obtain ⟨credentials, root⟩ := e
  cases credentials with
  | sourceAccount => rfl
  | address c => rfl

/-! ### The two fields -/

/-- A new expiration is all that changes in the credentials. -/
theorem credentials_withExpiration {c : SorobanAddressCredentials}
    (h : e.credentials = .address c) (expiration : UInt32) :
    (e.withExpiration expiration).credentials
      = .address { c with signatureExpirationLedger := expiration } := by
  unfold withExpiration
  rw [h]

/-- A new expiration leaves alone what is authorized. -/
theorem rootInvocation_withExpiration (e : SorobanAuthorizationEntry) (expiration : UInt32) :
    (e.withExpiration expiration).rootInvocation = e.rootInvocation := by
  obtain ⟨credentials, root⟩ := e
  cases credentials with
  | sourceAccount => rfl
  | address c => rfl

/-- A new expiration makes no difference to the entries that have it, or none at all. -/
theorem withExpiration_eq_self_iff :
    e.withExpiration expiration = e
      ↔ ∀ c, e.credentials = .address c → c.signatureExpirationLedger = expiration := by
  obtain ⟨credentials, root⟩ := e
  cases credentials with
  | sourceAccount => exact iff_of_true rfl nofun
  | address c =>
      obtain ⟨address, nonce, ledger, signature⟩ := c
      simp [withExpiration, eq_comm]

/-! ### What signing comes to -/

/-- The source account has nothing to sign, and the entry stays as it was. -/
theorem sign_sourceAccount (h : e.credentials = .sourceAccount) (key : KeyPair)
    (expiration : UInt32) (network : Network) :
    e.sign key expiration network = (.error (.validation "credentials" .notSignable), e) := by
  unfold sign
  rw [h]

/-- **Where there is a payload**, the entry gets the expiration and a signature over it. -/
theorem sign_of_payload {c : SorobanAddressCredentials} {payload : Hash}
    (h : e.credentials = .address c)
    (hpayload : (e.withExpiration expiration).signaturePayload network = .ok payload) :
    e.sign key expiration network = (.ok (), (e.withExpiration expiration).withSignature
      (signatureValue key.accountId.toList (key.sign payload.toList))) := by
  unfold sign
  simp only [h, hpayload]

/-- **Where there is none**, the fault is returned with the new expiration already in the entry. -/
theorem sign_of_fault {c : SorobanAddressCredentials} (h : e.credentials = .address c)
    (hfault : (e.withExpiration expiration).signaturePayload network = .error fault) :
    e.sign key expiration network = (.error fault, e.withExpiration expiration) := by
  unfold sign
  simp only [h, hfault]

/-- Signing an address credential hashes the payload with the new expiration, and puts the signature
of the hash into it. -/
theorem sign_eq_ok_iff :
    e.sign key expiration network = (.ok (), e') ↔ ∃ c payload, e.credentials = .address c
      ∧ (e.withExpiration expiration).signaturePayload network = .ok payload
      ∧ e' = (e.withExpiration expiration).withSignature
        (signatureValue key.accountId.toList (key.sign payload.toList)) := by
  cases hcredentials : e.credentials with
  | sourceAccount =>
      rw [sign_sourceAccount hcredentials]
      exact iff_of_false nofun nofun
  | address c =>
      cases hpayload : (e.withExpiration expiration).signaturePayload network with
      | error fault =>
          rw [sign_of_fault hcredentials hpayload]
          exact iff_of_false nofun nofun
      | ok payload =>
          rw [sign_of_payload hcredentials hpayload]
          constructor
          · intro h
            cases h
            exact ⟨c, payload, rfl, rfl, rfl⟩
          · rintro ⟨-, -, -, ⟨⟩, rfl⟩
            rfl

/-- The credential of the source account cannot be signed, and no other one if the tree breaks a
rule of the wire form. The expiration is the new one by then. -/
theorem sign_eq_error_iff :
    e.sign key expiration network = (.error fault, e') ↔ e' = e.withExpiration expiration
      ∧ ((e.credentials = .sourceAccount ∧ fault = .validation "credentials" .notSignable)
        ∨ ((∃ c, e.credentials = .address c)
          ∧ SorobanAuthorizedInvocation.schema.wire.encode e.rootInvocation = .error fault)) := by
  cases hcredentials : e.credentials with
  | sourceAccount =>
      -- An entry without an address has no expiration to set.
      have hsame : e.withExpiration expiration = e := by
        rw [withExpiration_eq_self_iff, hcredentials]
        nofun
      rw [sign_sourceAccount hcredentials, hsame]
      constructor
      · intro h
        cases h
        exact ⟨rfl, .inl ⟨rfl, rfl⟩⟩
      · rintro ⟨rfl, ⟨-, rfl⟩ | ⟨⟨-, ⟨⟩⟩, -⟩⟩
        rfl
  | address c =>
      -- The new expiration has no part in whether the payload fails.
      have htree : (e.withExpiration expiration).signaturePayload network = .error fault ↔ _ :=
        signaturePayload_eq_error_iff (credentials_withExpiration hcredentials expiration)
      rw [rootInvocation_withExpiration] at htree
      rw [← htree]
      cases hpayload : (e.withExpiration expiration).signaturePayload network with
      | ok payload =>
          rw [sign_of_payload hcredentials hpayload]
          refine iff_of_false nofun ?_
          rintro ⟨-, ⟨⟨⟩, -⟩ | ⟨-, ⟨⟩⟩⟩
      | error fault' =>
          rw [sign_of_fault hcredentials hpayload]
          constructor
          · intro h
            cases h
            exact ⟨rfl, .inr ⟨⟨c, rfl⟩, rfl⟩⟩
          · rintro ⟨rfl, ⟨⟨⟩, -⟩ | ⟨-, ⟨⟩⟩⟩
            rfl

/-- An entry can be signed if its credential is that of an address and its tree can be written. -/
theorem exists_sign_eq_ok_iff :
    (∃ e', e.sign key expiration network = (.ok (), e')) ↔ (∃ c, e.credentials = .address c)
      ∧ ∃ p, SorobanAuthorizedInvocation.schema.wire.encode e.rootInvocation = .ok p := by
  constructor
  · rintro ⟨e', h⟩
    obtain ⟨c, payload, hcredentials, -, -⟩ := sign_eq_ok_iff.1 h
    refine ⟨⟨c, hcredentials⟩, ?_⟩
    cases htree : SorobanAuthorizedInvocation.schema.wire.encode e.rootInvocation with
    | ok p => exact ⟨p, rfl⟩
    | error fault =>
        rw [sign_eq_error_iff.2 ⟨rfl, .inr ⟨⟨c, hcredentials⟩, htree⟩⟩] at h
        cases h
  · rintro ⟨⟨c, hcredentials⟩, p, htree⟩
    rcases hsign : e.sign key expiration network with ⟨fault | u, e'⟩
    · obtain ⟨-, ⟨hsource, -⟩ | ⟨-, hbroken⟩⟩ := sign_eq_error_iff.1 hsign
      · rw [hcredentials] at hsource
        cases hsource
      · rw [htree] at hbroken
        cases hbroken
    · exact ⟨e', rfl⟩

/-! ### Entries that are signed -/

/-- **A signed entry carries a signature of its own payload.** It is the entry that was to be
signed but for two fields of its credential: the expiration, which is the given one, and the
signature. That is a vector of one map with the 32 bytes of the account's key and the 64 bytes of
the signature of the payload, which is the payload of the signed entry itself. Signing it again with
the same arguments succeeds and changes nothing. -/
theorem signed_entry (h : e.sign key expiration network = (.ok (), e')) :
    ∃ c payload, e.credentials = .address c
      ∧ e' = ⟨.address { c with
          signatureExpirationLedger := expiration
          signature := .vec (some [.map (some
            [⟨.symbol "public_key", .bytes key.accountId.toList⟩,
              ⟨.symbol "signature", .bytes (key.sign payload.toList)⟩])]) }, e.rootInvocation⟩
      ∧ e'.signaturePayload network = .ok payload
      ∧ key.accountId.toList = Ed25519.publicKey key.seed.toList
      ∧ key.accountId.toList.length = 32 ∧ (key.sign payload.toList).length = 64
      ∧ e'.sign key expiration network = (.ok (), e') := by
  obtain ⟨c, payload, hcredentials, hpayload, rfl⟩ := sign_eq_ok_iff.1 h
  obtain ⟨credentials, root⟩ := e
  cases hcredentials
  have haccount := key.toList_accountId
  have hagain := (signaturePayload_withSignature _ (signatureValue key.accountId.toList
    (key.sign payload.toList)) network).trans hpayload
  refine ⟨c, payload, rfl, rfl, hagain, haccount, ?_, key.length_sign _, ?_⟩
  · rw [haccount, Ed25519.length_publicKey]
  · -- The expiration is there already, so that the payload is the same, and so is its signature.
    exact sign_eq_ok_iff.2 ⟨_, payload, rfl, hagain, rfl⟩

/-- A contract approves a call of itself. -/
theorem signed_entry_leaf :
    let call : SorobanAuthorizedInvocation := .leaf (.contractFn ⟨.contract ⟨.zero⟩, "f", []⟩)
    let entry : SorobanAuthorizationEntry := ⟨.address ⟨.contract ⟨.zero⟩, -1, 7, .void⟩, call⟩
    ∃ e', entry.sign ⟨Vector.replicate 32 1⟩ 9 .mainnet = (.ok (), e')
      ∧ e'.sign ⟨Vector.replicate 32 1⟩ 9 .mainnet = (.ok (), e') := by
  intro call entry
  have hwritten : SorobanAuthorizedInvocation.schema.wire.encode call
      = .ok ([0, 0, 0, 0] ++ [0, 0, 0, 1] ++ List.replicate 32 0 ++ [0, 0, 0, 1, 102, 0, 0, 0]
        ++ [0, 0, 0, 0] ++ [0, 0, 0, 0]) := by decide +kernel
  obtain ⟨e', hsigned⟩ : ∃ e', entry.sign ⟨Vector.replicate 32 1⟩ 9 .mainnet = (.ok (), e') :=
    exists_sign_eq_ok_iff.2 ⟨⟨_, rfl⟩, _, hwritten⟩
  obtain ⟨-, -, -, -, -, -, -, -, hagain⟩ := signed_entry hsigned
  exact ⟨e', hsigned, hagain⟩

/-! ### Entries that are not signed -/

/-- **An entry that could not be signed keeps everything but its expiration.** The credential of
the source account is left as it is. That of an address has the new expiration next to its old
signature, so that the entry is what it was only if it had this expiration before. There are two
reasons: the credential is the source account's, or the tree breaks a rule of the wire form. -/
theorem unsigned_entry (h : e.sign key expiration network = (.error fault, e')) :
    (e.credentials = .sourceAccount → e' = e)
      ∧ (∀ c, e.credentials = .address c →
          e' = ⟨.address { c with signatureExpirationLedger := expiration }, e.rootInvocation⟩)
      ∧ (e' = e ↔ ∀ c, e.credentials = .address c → c.signatureExpirationLedger = expiration)
      ∧ ((e.credentials = .sourceAccount ∧ fault = .validation "credentials" .notSignable)
        ∨ ((∃ c, e.credentials = .address c)
          ∧ SorobanAuthorizedInvocation.schema.wire.encode e.rootInvocation = .error fault)) := by
  obtain ⟨rfl, hcause⟩ := sign_eq_error_iff.1 h
  refine ⟨fun hcredentials => ?_, fun c hcredentials => ?_, withExpiration_eq_self_iff, hcause⟩
  · rw [withExpiration_eq_self_iff, hcredentials]
    nofun
  · obtain ⟨credentials, root⟩ := e
    cases hcredentials
    rfl

/-- An entry that cannot be signed: the argument of its call is no symbol. -/
def unsignable : SorobanAuthorizationEntry where
  credentials := .address ⟨.contract ⟨.zero⟩, -1, 7, .void⟩
  rootInvocation := .leaf (.contractFn ⟨.contract ⟨.zero⟩, "f", [.symbol "bad!"]⟩)

/-- The symbol is what is wrong with the entry, whatever key signs it. -/
theorem sign_unsignable (key : KeyPair) (expiration : UInt32) (network : Network) :
    unsignable.sign key expiration network
      = (.error (.validation "symbol" (.symbolCharacter "bad!" '!')),
          unsignable.withExpiration expiration) :=
  sign_eq_error_iff.2 ⟨rfl, .inr ⟨⟨_, rfl⟩, by decide +kernel⟩⟩

theorem unsigned_entry_badSymbol :
    ∃ fault, unsignable.sign ⟨Vector.replicate 32 1⟩ 9 .mainnet = (.error fault,
      ⟨.address ⟨.contract ⟨.zero⟩, -1, 9, .void⟩, unsignable.rootInvocation⟩) := by
  have hfails := sign_unsignable ⟨Vector.replicate 32 1⟩ 9 .mainnet
  have hleft := (unsigned_entry hfails).2.1 _ rfl
  exact ⟨_, hfails.trans (congrArg (Prod.mk _) hleft)⟩

/-- Not every entry is left as it was: this one expires with ledger 9, and did with ledger 7. -/
theorem not_atomic_badSymbol :
    ¬∀ (e : SorobanAuthorizationEntry) key expiration network fault e',
      e.sign key expiration network = (.error fault, e') → e' = e := by
  intro hatomic
  have hfails := sign_unsignable ⟨Vector.replicate 32 1⟩ 9 .mainnet
  have hsame := withExpiration_eq_self_iff.1 (hatomic _ _ _ _ _ _ hfails) _ rfl
  exact absurd hsame (by decide)

end SorobanAuthorizationEntry

end LedgerWire
