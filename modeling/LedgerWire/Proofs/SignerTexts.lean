/-
# Texts of signers

A signer bound to a payload has a text that carries the payload behind its length, filled up to a
multiple of four bytes. The wire form has the same layout, and its reader wants zeros there. The
reader of texts only counts these bytes: filled up by others, a text names the same signer. All
other texts of signers are those that the signers are written as.

* `SignerKey.Misfilled` — a text of a signer that is filled up by something else than zeros.
* `SignerKey.ofText_eq_ok_iff` — the texts of a signer.
* `SignerKey.exists_misfilled_iff` — the signers that have such texts.
* `SignerKey.encode_eq_ok_iff`, `SignerKey.decode_eq_ok_iff` — the wire form, byte for byte.
* `signers_spelled` — texts of signers against the texts that are written and against the wire form.
-/

import LedgerWire.Proofs.Types.Strict
import LedgerWire.Proofs.UniqueNames

namespace LedgerWire.SignerKey

open Bytes (word)

variable {k : SignerKey} {s : String} {raw : Bytes}

/-! ### Payloads and what fills them up -/

/-- What fills up a payload stands behind all that the reader looks at. -/
theorem filledBytes_inj {account : AccountId} {payload filling filling' : Bytes} :
    filledBytes account payload filling = filledBytes account payload filling'
      ↔ filling = filling' := List.append_right_inj _

/-- The bytes that stand for a signer bound to a payload. -/
theorem ofPayloadBytes_eq_ok_iff :
    ofPayloadBytes raw = .ok k ↔ ∃ account payload filling, k = .signedPayload account payload
      ∧ payload.length ≤ Limits.signedPayload.toNat ∧ filling.length = paddingFor payload.length
      ∧ raw = filledBytes account payload filling := by
  constructor
  · intro h
    unfold ofPayloadBytes at h
    simp only at h
    split at h
    · rename_i key hkey
      generalize hlength : Bytes.toNat ((raw.drop 32).take 4) = length at h
      split at h
      · cases h
      · rename_i hfits
        cases h
        have hsize : raw.length = 36 + length + paddingFor length := by omega
        have hpayload : ((raw.drop 36).take length).length = length := by
          rw [List.length_take, List.length_drop]
          omega
        have hword : ((raw.drop 32).take 4).length = 4 := by
          rw [List.length_take, List.length_drop]
          omega
        -- The four bytes of the length are the ones that the length is written with.
        have hcount : Bytes.bigEndian 4 length = (raw.drop 32).take 4 := by
          have hnumeral := Bytes.bigEndian_toNat ((raw.drop 32).take 4)
          rwa [hword, hlength] at hnumeral
        refine ⟨⟨key⟩, _, (raw.drop 36).drop length, rfl, by omega, ?_, ?_⟩
        · rw [hpayload, List.length_drop, List.length_drop]
          omega
        · -- The key, the length, the payload and the rest are the bytes, one after the other.
          unfold filledBytes AccountId.toList
          rw [hpayload, hcount, ← Bytes.fixed?_eq_some_iff.1 hkey, List.append_assoc,
            List.take_append_drop, List.append_assoc, ← List.drop_drop (i := 4) (j := 32),
            List.take_append_drop, List.take_append_drop]
    · cases h
  · rintro ⟨account, payload, filling, rfl, hbound, hfilling, rfl⟩
    exact ofPayloadBytes_filledBytes account hbound hfilling

/-! ### Texts -/

/-- The text is one of the signer, with a payload that is filled up, and not by zeros alone. -/
def Misfilled (k : SignerKey) (s : String) : Prop :=
  ∃ account payload filling, k = .signedPayload account payload ∧ payload.length ≤ 64
    ∧ filling.length = paddingFor payload.length
    ∧ filling ≠ List.replicate (paddingFor payload.length) 0
    ∧ s = Strkey.encode .signedPayload (filledBytes account payload filling)

/-- It is not what the signer is written as. -/
theorem Misfilled.ne_text (h : k.Misfilled s) : k.text ≠ s := by
  obtain ⟨account, payload, filling, rfl, -, -, hne, rfl⟩ := h
  intro htext
  exact hne (filledBytes_inj.1 (Strkey.encode_injective .signedPayload htext)).symm

/-- **The texts of a signer.** -/
theorem ofText_eq_ok_iff :
    ofText s = .ok k ↔ (k.validate = .ok () ∧ s = k.text) ∨ k.Misfilled s := by
  constructor
  · intro h
    unfold ofText at h
    -- The first letters are T, X and P, and every other one.
    split at h
    · obtain ⟨hash, hread, hk⟩ := exists_of_bind_eq_ok h
      cases hk
      exact .inl ⟨rfl, Strkey.decodeFixed_eq_ok_iff.1 hread⟩
    · obtain ⟨hash, hread, hk⟩ := exists_of_bind_eq_ok h
      cases hk
      exact .inl ⟨rfl, Strkey.decodeFixed_eq_ok_iff.1 hread⟩
    · obtain ⟨raw, hread, hraw⟩ := exists_of_bind_eq_ok h
      obtain ⟨account, payload, filling, rfl, hbound, hfilling, rfl⟩ :=
        ofPayloadBytes_eq_ok_iff.1 hraw
      have htext := Strkey.decode_eq_ok_iff.1 hread
      -- The filling is not looked at, so there are texts that no key is written as.
      by_cases hzeros : filling = List.replicate (paddingFor payload.length) 0
      · subst hzeros
        exact .inl ⟨if_pos hbound, htext⟩
      · exact .inr ⟨account, payload, filling, rfl, hbound, hfilling, hzeros, htext⟩
    · obtain ⟨account, hread, hk⟩ := exists_of_bind_eq_ok h
      cases hk
      exact .inl ⟨rfl, AccountId.ofText_eq_ok_iff.1 hread⟩
  · rintro (⟨hvalid, rfl⟩ | ⟨account, payload, filling, rfl, hbound, hfilling, -, rfl⟩)
    · exact ofText_text hvalid
    · have hhead : (Strkey.encode .signedPayload (filledBytes account payload filling)).toList.head?
          = some 'P' := Strkey.head?_encode ..
      unfold ofText
      simp only [hhead]
      rw [Strkey.decode_eq_ok_iff.2 rfl]
      exact ofPayloadBytes_filledBytes account hbound hfilling

/-- The signers whose payload has to be filled up are those with such texts. -/
theorem exists_misfilled_iff :
    (∃ s, k.Misfilled s) ↔ ∃ account payload, k = .signedPayload account payload
      ∧ payload.length ≤ 64 ∧ ¬4 ∣ payload.length := by
  constructor
  · rintro ⟨s, account, payload, filling, rfl, hbound, hfilling, hne, -⟩
    refine ⟨account, payload, rfl, hbound, fun hdvd => hne ?_⟩
    have hnone : paddingFor payload.length = 0 := by
      unfold paddingFor
      omega
    rw [hnone] at hfilling ⊢
    exact List.length_eq_zero_iff.1 hfilling
  · rintro ⟨account, payload, rfl, hbound, hdvd⟩
    have hsome : paddingFor payload.length ≠ 0 := by
      unfold paddingFor
      omega
    refine ⟨_, account, payload, List.replicate (paddingFor payload.length) 1, rfl, hbound,
      List.length_replicate, ?_, rfl⟩
    rw [Ne, List.replicate_inj]
    simp [hsome]

/-! ### The wire form -/

/-- The bytes of a signer on the wire. -/
def wireBytes : SignerKey → Bytes
  | .ed25519 account => word 0 ++ account.toList
  | .preAuthTx hash => word 1 ++ hash.toList
  | .hashX hash => word 2 ++ hash.toList
  | .signedPayload account payload => word 3 ++ payloadBytes account payload

/-- The kind is written in front of a key of 32 bytes, which need no filling. -/
theorem appends_key_iff {number : UInt32} {key : Vector UInt8 32} :
    Put.Appends (do Put.u32 number; Put.padded key.toList) (.ok ()) raw
      ↔ raw = word number ++ key.toList := by
  have hkey : Put.Appends (Put.padded key.toList) (.ok ()) key.toList :=
    Put.appends_padded_of_dvd (by simp)
  exact Put.appends_iff_of_appends ((Put.appends_u32 number).bind hkey)

/-- The length of a payload within its bound fits the word in front of it. -/
theorem payloadBytes_eq (account : AccountId) {payload : Bytes}
    (h : payload.length ≤ Limits.signedPayload.toNat) :
    payloadBytes account payload = account.toList
      ++ (word (UInt32.ofNat payload.length) ++ (payload ++ Get.zeros payload.length)) := by
  have hcount : (UInt32.ofNat payload.length).toNat = payload.length :=
    UInt32.toNat_ofNat_of_lt' (Nat.lt_of_le_of_lt h (by decide))
  rw [word, hcount]
  simp [payloadBytes, Get.zeros]

/-- The wire form of a payload is what its text covers. -/
theorem appends_payload_iff {account : AccountId} {payload : Bytes} :
    Put.Appends (do
      Put.u32 3
      Put.padded account.toList
      Put.bytes Limits.signedPayload "signed_payload" payload) (.ok ()) raw
      ↔ payload.length ≤ Limits.signedPayload.toNat
        ∧ raw = word 3 ++ payloadBytes account payload := by
  have hsteady := Put.steady_bytes Limits.signedPayload "signed_payload" payload
  have hkey : Put.Appends (Put.padded account.toList) (.ok ()) account.toList :=
    Put.appends_padded_of_dvd (by simp [AccountId.toList])
  have hrest := (Put.steady_of_appends hkey).bind hsteady
  rw [Put.Appends.bind_iff (Put.steady_of_appends (Put.appends_u32 3)) hrest]
  simp only [Put.Appends.bind_iff (Put.steady_of_appends hkey) hsteady,
    Put.appends_iff_of_appends (Put.appends_u32 3), Put.appends_iff_of_appends hkey,
    Put.appends_bytes_iff]
  constructor
  · rintro ⟨_, _, rfl, rfl, _, _, rfl, rfl, hbound, rfl⟩
    exact ⟨hbound, by rw [payloadBytes_eq account hbound]⟩
  · rintro ⟨hbound, rfl⟩
    exact ⟨_, _, by rw [payloadBytes_eq account hbound], rfl, _, _, rfl, rfl, hbound, rfl⟩

/-- A signer's key is written when it is valid, and by its bytes. -/
theorem encode_eq_ok_iff :
    schema.wire.encode k = .ok raw ↔ k.validate = .ok () ∧ raw = k.wireBytes := by
  rw [Codec.encode_eq_ok_iff (flat.steady_put k)]
  cases k with
  | ed25519 account => exact appends_key_iff.trans (and_iff_right rfl).symm
  | preAuthTx hash => exact appends_key_iff.trans (and_iff_right rfl).symm
  | hashX hash => exact appends_key_iff.trans (and_iff_right rfl).symm
  | signedPayload account payload =>
      refine appends_payload_iff.trans (and_congr_left fun _ => ?_)
      exact provided_eq_ok_iff.symm

/-- The bytes of a valid key are read as that key, and no others are. -/
theorem decode_eq_ok_iff :
    schema.wire.decode raw = .ok k ↔ k.validate = .ok () ∧ raw = k.wireBytes := by
  rw [(flat Reader.defaultLimit).decode_eq_ok_iff_encode strict, encode_eq_ok_iff]
  exact and_iff_right (Nat.zero_le _)

/-- Bytes behind the kind of a signer that is bound to a payload are read as a signer exactly if
they are what its text covers. -/
theorem decode_payload_eq_ok_iff :
    schema.wire.decode (word 3 ++ raw) = .ok k
      ↔ k.validate = .ok () ∧ Strkey.encode .signedPayload raw = k.text := by
  rw [decode_eq_ok_iff]
  refine and_congr_right fun _ => ?_
  cases k with
  | ed25519 account =>
      refine iff_of_false (fun h => ?_) (Strkey.encode_ne_of_ne (by decide) _ _)
      exact absurd (Bytes.word_eq_of_append h) (by decide)
  | preAuthTx hash =>
      refine iff_of_false (fun h => ?_) (Strkey.encode_ne_of_ne (by decide) _ _)
      exact absurd (Bytes.word_eq_of_append h) (by decide)
  | hashX hash =>
      refine iff_of_false (fun h => ?_) (Strkey.encode_ne_of_ne (by decide) _ _)
      exact absurd (Bytes.word_eq_of_append h) (by decide)
  | signedPayload account payload =>
      exact (List.append_right_inj _).trans (Strkey.encode_injective .signedPayload).eq_iff.symm

end LedgerWire.SignerKey

namespace LedgerWire

/-! ### Texts against the wire -/

/-- **The texts of signers are canonical but for what fills up payloads.** A text is read as a
signer if it is what the signer is written as, and also if it is the same but for the bytes that
fill up the payload. So what is read is written as the same text, and two texts of one signer are
equal, unless such bytes are there; they can be in the texts of exactly the signers whose payload is
no multiple of four bytes long. The payload of a text is read from the wire, behind the kind of
these signers, as the signer that the text names, unless such bytes are there. -/
theorem signers_spelled (s : String) (k : SignerKey) :
    (SignerKey.ofText s = .ok k ↔ (k.validate = .ok () ∧ s = k.text) ∨ k.Misfilled s)
      ∧ (SignerKey.ofText s = .ok k → (k.text = s ↔ ¬k.Misfilled s))
      ∧ (∀ t, SignerKey.ofText s = .ok k → SignerKey.ofText t = .ok k →
          ¬k.Misfilled s → ¬k.Misfilled t → s = t)
      ∧ ((∃ t, k.Misfilled t) ↔ ∃ account payload, k = .signedPayload account payload
          ∧ payload.length ≤ 64 ∧ ¬4 ∣ payload.length)
      ∧ ∀ raw, Strkey.decode .signedPayload s = .ok raw →
          (SignerKey.schema.wire.decode ([0, 0, 0, 3] ++ raw) = .ok k
            ↔ SignerKey.ofText s = .ok k ∧ ¬k.Misfilled s) := by
  have htext : ∀ {t}, SignerKey.ofText t = .ok k → (k.text = t ↔ ¬k.Misfilled t) := by
    intro t h
    refine ⟨fun heq hmisfilled => hmisfilled.ne_text heq, fun hnot => ?_⟩
    obtain ⟨-, rfl⟩ := (SignerKey.ofText_eq_ok_iff.1 h).resolve_right hnot
    rfl
  refine ⟨SignerKey.ofText_eq_ok_iff, htext, fun t hs ht hs' ht' => ?_,
    SignerKey.exists_misfilled_iff, fun raw h => ?_⟩
  · rw [← (htext hs).2 hs', ← (htext ht).2 ht']
  · refine SignerKey.decode_payload_eq_ok_iff.trans ?_
    rw [← Strkey.decode_eq_ok_iff.1 h, SignerKey.ofText_eq_ok_iff]
    constructor
    · rintro ⟨hvalid, heq⟩
      exact ⟨.inl ⟨hvalid, heq⟩, fun hmisfilled => hmisfilled.ne_text heq.symm⟩
    · rintro ⟨hread, hnot⟩
      exact hread.resolve_right hnot

/-- Two bytes of payload, filled up by zeros and by two other bytes. -/
theorem signers_spelled_twoBytes :
    ∃ s t, SignerKey.ofText s = .ok (.signedPayload ⟨Vector.replicate 32 7⟩ [1, 2])
      ∧ SignerKey.ofText t = .ok (.signedPayload ⟨Vector.replicate 32 7⟩ [1, 2]) ∧ s ≠ t := by
  have hmisfilled : SignerKey.Misfilled (.signedPayload ⟨Vector.replicate 32 7⟩ [1, 2])
      (Strkey.encode .signedPayload
        (SignerKey.filledBytes ⟨Vector.replicate 32 7⟩ [1, 2] [3, 4])) :=
    ⟨_, _, [3, 4], rfl, by decide, rfl, by decide, rfl⟩
  have hread := (signers_spelled _ _).1.2 (.inr hmisfilled)
  refine ⟨_, _, hread, (signers_spelled _ _).1.2 (.inl ⟨rfl, rfl⟩), fun heq => ?_⟩
  exact ((signers_spelled _ _).2.1 hread).1 heq.symm hmisfilled

/-- A text whose payload is two letters, filled up by two other letters, is not the text of the
signer that it is read as. -/
theorem not_canonical_lettersFilled :
    ¬∀ s k, SignerKey.ofText s = .ok k → k.text = s := by
  intro h
  have hread : (SignerKey.ofText
      "PC3OZQNKW3XZV5NFE2IBKJJJZHQT3WSSXRKGUJTE2SPI5JSGFMCROAAAAABGCYTDMSD4M").map SignerKey.text
      = .ok "PC3OZQNKW3XZV5NFE2IBKJJJZHQT3WSSXRKGUJTE2SPI5JSGFMCROAAAAABGCYQAADOLI" := by
    decide +kernel
  obtain ⟨k, hk, htext⟩ := exists_of_map_eq_ok hread
  rw [h _ k hk] at htext
  revert htext
  decide

end LedgerWire
