/-
# Unique names

Addresses and assets are named by their texts, and each has one name. A reader accepts a text only
if writing what it read gives the text back, whichever way it took: by the first character, by the
colon, or by the length of a code.

* `AccountId.ofText_eq_ok_iff`, `MuxedAccount.ofText_eq_ok_iff`, `ContractId.ofText_eq_ok_iff`,
  `ScAddress.ofText_eq_ok_iff` — the texts of addresses.
* `Asset.ofText_eq_ok_iff` — the texts of assets, which are those of valid assets.
* `names_unique` — all of them together, and the texts of signers.
-/

import LedgerWire.Proofs.Texts

namespace LedgerWire

/-! ### Results -/

section Results

variable {ε α β : Type} {x : Except ε α} {b : β}

/-- A sequence that succeeds has two parts that do. -/
theorem exists_of_bind_eq_ok {f : α → Except ε β} (h : (x >>= f) = .ok b) :
    ∃ a, x = .ok a ∧ f a = .ok b := by
  cases x with
  | error e => cases h
  | ok a => exact ⟨a, rfl, h⟩

/-- A result under a function comes of one before it. -/
theorem exists_of_map_eq_ok {f : α → β} (h : x.map f = .ok b) : ∃ a, x = .ok a ∧ f a = b := by
  cases x with
  | error e => cases h
  | ok a => exact ⟨a, rfl, Except.ok.inj h⟩

end Results

/-! ### Keys of a fixed size -/

namespace Strkey

variable {n : Nat} {v : Version} {s : String}

/-- **A key of a fixed size has one text**, which is the one it is written with. -/
theorem decodeFixed_eq_ok_iff {key : Vector UInt8 n} :
    decodeFixed n v s = .ok key ↔ s = encode v key.toList := by
  constructor
  · intro h
    obtain ⟨payload, hread, hkey⟩ := exists_of_bind_eq_ok h
    cases hfixed : Bytes.fixed? n payload with
    | none =>
        rw [hfixed] at hkey
        cases hkey
    | some bytes =>
        rw [hfixed] at hkey
        cases hkey
        rw [decode_eq_ok_iff.1 hread, Bytes.fixed?_eq_some_iff.1 hfixed]
  · rintro rfl
    exact decodeFixed_encode v key

end Strkey

/-! ### Addresses -/

/-- An account has one text. -/
theorem AccountId.ofText_eq_ok_iff {s : String} {a : AccountId} :
    ofText s = .ok a ↔ s = a.text := by
  constructor
  · intro h
    obtain ⟨key, hread, rfl⟩ := exists_of_map_eq_ok h
    exact Strkey.decodeFixed_eq_ok_iff.1 hread
  · rintro rfl
    exact a.ofText_text

/-- A contract has one text. -/
theorem ContractId.ofText_eq_ok_iff {s : String} {c : ContractId} :
    ofText s = .ok c ↔ s = c.text := by
  constructor
  · intro h
    obtain ⟨key, hread, rfl⟩ := exists_of_map_eq_ok h
    exact Strkey.decodeFixed_eq_ok_iff.1 hread
  · rintro rfl
    exact c.ofText_text

namespace MuxedAccount

/-- The payload of a numbered account is its key and then its number, on eight bytes. -/
theorem payload_of_ofPayload {payload : Bytes} {m : MuxedAccount} (h : ofPayload payload = .ok m) :
    ∃ id account, m = .muxed id account
      ∧ payload = account.toList ++ Bytes.bigEndian 8 id.toNat := by
  unfold ofPayload at h
  cases hkey : Bytes.fixed? 32 (payload.take 32) with
  | none =>
      rw [hkey] at h
      cases h
  | some key =>
      cases hid : Bytes.fixed? 8 (payload.drop 32) with
      | none =>
          rw [hkey, hid] at h
          cases h
      | some id =>
          rw [hkey, hid] at h
          cases h
          have hlen : id.toList.length = 8 := by simp
          -- Eight bytes count a number of 64 bits, so the number is not cut.
          have hnat : (UInt64.ofNat (Bytes.toNat id.toList)).toNat = Bytes.toNat id.toList := by
            have hlt := Bytes.toNat_lt id.toList
            rw [hlen] at hlt
            exact UInt64.toNat_ofNat_of_lt' hlt
          have hnumeral := Bytes.bigEndian_toNat id.toList
          rw [hlen] at hnumeral
          refine ⟨_, _, rfl, ?_⟩
          rw [hnat, hnumeral, ← Bytes.fixed?_eq_some_iff.1 hid]
          show payload = key.toList ++ payload.drop 32
          rw [← Bytes.fixed?_eq_some_iff.1 hkey, List.take_append_drop]

/-- The two kinds share no text: numbered accounts have a first character of their own. -/
theorem ofText_eq_ok_iff {s : String} {m : MuxedAccount} : ofText s = .ok m ↔ s = m.text := by
  constructor
  · intro h
    unfold ofText at h
    by_cases hhead : s.toList.head? = some Strkey.Version.muxedAccount.letter
    · rw [if_pos hhead] at h
      obtain ⟨payload, hread, hpayload⟩ := exists_of_bind_eq_ok h
      obtain ⟨id, account, rfl, rfl⟩ := payload_of_ofPayload hpayload
      exact Strkey.decode_eq_ok_iff.1 hread
    · rw [if_neg hhead] at h
      obtain ⟨account, hread, hm⟩ := exists_of_bind_eq_ok h
      cases hm
      exact AccountId.ofText_eq_ok_iff.1 hread
  · rintro rfl
    exact m.ofText_text

end MuxedAccount

/-- An address has one text, and its first letter tells the kind. -/
theorem ScAddress.ofText_eq_ok_iff {s : String} {a : ScAddress} :
    ofText s = .ok a ↔ s = a.text := by
  constructor
  · intro h
    unfold ofText at h
    by_cases hhead : s.toList.head? = some Strkey.Version.contract.letter
    · rw [if_pos hhead] at h
      obtain ⟨contract, hread, ha⟩ := exists_of_bind_eq_ok h
      cases ha
      exact ContractId.ofText_eq_ok_iff.1 hread
    · rw [if_neg hhead] at h
      obtain ⟨account, hread, ha⟩ := exists_of_bind_eq_ok h
      cases ha
      exact AccountId.ofText_eq_ok_iff.1 hread
  · rintro rfl
    exact a.ofText_text

/-! ### Assets -/

namespace Asset

variable {s : String} {a b : Asset}

/-- A list with a colon in it, split at the first one. -/
theorem split_at_colon {cs : List Char} (h : ':' ∈ cs) :
    cs = cs.takeWhile (· ≠ ':') ++ ':' :: (cs.dropWhile (· ≠ ':')).drop 1 := by
  induction cs with
  | nil => cases h
  | cons c rest ih =>
      by_cases hc : c = ':'
      · subst hc
        simp
      · have hrest : ':' ∈ rest := by
          rcases List.mem_cons.1 h with heq | hmem
          · exact absurd heq.symm hc
          · exact hmem
        rw [List.takeWhile_cons_of_pos (by simpa using hc),
          List.dropWhile_cons_of_pos (by simpa using hc), List.cons_append, ← ih hrest]

/-- A credit made from a code and an issuer has them, and its code obeys the rules. -/
theorem text_of_ofCredit {code : String} {issuer : AccountId} (h : ofCredit code issuer = .ok a) :
    a.validate = .ok () ∧ a.text = code ++ ":" ++ issuer.text := by
  obtain ⟨credit, hmake, ha⟩ := exists_of_bind_eq_ok h
  obtain ⟨hvalid, rfl⟩ := checked_eq_ok_iff.1 hmake
  cases ha
  exact ⟨hvalid, rfl⟩

/-- **A text names an asset exactly if the asset is valid and has that text.** -/
theorem ofText_eq_ok_iff : ofText s = .ok a ↔ a.validate = .ok () ∧ s = a.text := by
  constructor
  · intro h
    unfold ofText at h
    by_cases hnative : s = "native"
    · rw [if_pos hnative] at h
      cases h
      exact ⟨rfl, hnative⟩
    · rw [if_neg hnative] at h
      by_cases hcolon : s.toList.contains ':' = true
      · simp only [hcolon, if_true] at h
        cases hread : AccountId.ofText (.ofList ((s.toList.dropWhile (· ≠ ':')).drop 1)) with
        | error fault =>
            rw [hread] at h
            cases h
        | ok issuer =>
            rw [hread] at h
            obtain ⟨hvalid, htext⟩ := text_of_ofCredit h
            refine ⟨hvalid, ?_⟩
            rw [htext, ← AccountId.ofText_eq_ok_iff.1 hread, ← String.toList_inj]
            have hsplit := split_at_colon (List.contains_iff_mem.1 hcolon)
            simpa [String.toList_append] using hsplit
      · simp only [hcolon] at h
        cases h
  · rintro ⟨hvalid, rfl⟩
    exact ofText_text hvalid

/-- The code says how wide it is, in a valid asset. -/
theorem eq_of_code_issuer (ha : a.validate = .ok ()) (hb : b.validate = .ok ())
    (hcode : a.code? = b.code?) (hissuer : a.issuer? = b.issuer?) : a = b := by
  have htext : a.text = b.text := by
    cases a with
    | native =>
        cases b with
        | native => rfl
        | credit _ _ => cases hcode
    | credit _ c =>
        cases b with
        | native => cases hcode
        | credit _ d =>
            have hc : c.code = d.code := Option.some.inj hcode
            have hi : c.issuer = d.issuer := Option.some.inj hissuer
            rw [text, text, hc, hi]
  have hread := ofText_text ha
  rw [htext, ofText_text hb] at hread
  exact (Except.ok.inj hread).symm

end Asset

/-! ### Names -/

/-- **The texts of addresses and assets are unique names.** A text is read as an address exactly if
it is the text of that address. It is read as an asset exactly if it is the text of that asset and
the asset is valid, so that a valid asset is determined by its code and its issuer and keeps the
width of its code when its text is read again. The text of a signer is read as that signer, if its
payload has at most 64 bytes. -/
theorem names_unique :
    (∀ s (a : AccountId), AccountId.ofText s = .ok a ↔ s = a.text)
      ∧ (∀ s (m : MuxedAccount), MuxedAccount.ofText s = .ok m ↔ s = m.text)
      ∧ (∀ s (c : ContractId), ContractId.ofText s = .ok c ↔ s = c.text)
      ∧ (∀ s (a : ScAddress), ScAddress.ofText s = .ok a ↔ s = a.text)
      ∧ (∀ s (a : Asset), Asset.ofText s = .ok a ↔ a.validate = .ok () ∧ s = a.text)
      ∧ (∀ a b : Asset, a.validate = .ok () → b.validate = .ok () →
          a.code? = b.code? → a.issuer? = b.issuer? → a = b)
      ∧ (∀ a : Asset, a.validate = .ok () → Asset.ofText a.text = .ok a)
      ∧ ∀ k : SignerKey,
          (∀ account payload, k = .signedPayload account payload → payload.length ≤ 64) →
          SignerKey.ofText k.text = .ok k := by
  refine ⟨fun s a => AccountId.ofText_eq_ok_iff, fun s m => MuxedAccount.ofText_eq_ok_iff,
    fun s c => ContractId.ofText_eq_ok_iff, fun s a => ScAddress.ofText_eq_ok_iff,
    fun s a => Asset.ofText_eq_ok_iff, fun a b => Asset.eq_of_code_issuer,
    fun a => Asset.ofText_text, fun k hbound => ?_⟩
  refine SignerKey.ofText_text ?_
  cases k with
  | signedPayload account payload => exact if_pos (hbound account payload rfl)
  | ed25519 account => rfl
  | preAuthTx hash => rfl
  | hashX hash => rfl

/-- A credit whose code spells the name of the native asset, and a signer with three bytes of
payload, which are filled up to four. -/
theorem names_unique_nativeCode_padded :
    Asset.ofText (Asset.text (.credit .twelve ⟨"native", ⟨Vector.replicate 32 7⟩⟩))
        = .ok (.credit .twelve ⟨"native", ⟨Vector.replicate 32 7⟩⟩)
      ∧ SignerKey.ofText (SignerKey.text (.signedPayload ⟨Vector.replicate 32 7⟩ [1, 2, 3]))
        = .ok (.signedPayload ⟨Vector.replicate 32 7⟩ [1, 2, 3]) := by
  refine ⟨(names_unique.2.2.2.2.1 _ _).2 ⟨by decide +kernel, rfl⟩, ?_⟩
  refine names_unique.2.2.2.2.2.2.2 _ ?_
  rintro account payload ⟨⟩
  decide

end LedgerWire
