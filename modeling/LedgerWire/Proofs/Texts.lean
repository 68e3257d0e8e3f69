/-
# Texts of names and amounts

The types that are shown as a text of their own are read from it again. Where a reader looks at the
first character to tell kinds apart, the kinds have different ones.

* `Amount.ofText_text`, `AccountId.ofText_text`, `MuxedAccount.ofText_text`, … — every value of most
  types.
* `SignerKey.ofText_text` — a key with a payload of at most 64 bytes.
* `Asset.ofText_text` — an asset with a code that obeys the rules.
-/

import LedgerWire.Proofs.Strkey
import LedgerWire.Proofs.Text.Decimal
import LedgerWire.Proofs.Types.Assets
import LedgerWire.Signer

namespace LedgerWire

/-! ### Amounts -/

namespace Amount

/-- The text of an amount: a sign, the whole part, the point and seven digits. -/
theorem toList_textOfStroops (n : Int) :
    (textOfStroops n).toList = Text.signChars (decide (n < 0))
      ++ (Nat.toDigits 10 (n.natAbs / 10 ^ decimals)
        ++ '.' :: (Text.paddedDigits decimals (n.natAbs % 10 ^ decimals)).toList) := by
  have hsign : (if n < 0 then "-" else "").toList = Text.signChars (decide (n < 0)) := by
    by_cases hn : n < 0
    · simp [Text.signChars, hn]
    · simp [Text.signChars, hn]
  unfold textOfStroops
  simp only [String.toList_append, hsign, Text.toList_toString, List.append_assoc]
  rfl

/-- The worth of a count of stroops before and after the point. -/
theorem scaled_textOfStroops (n : Int) :
    Text.Decimal.scaled
      ⟨decide (n < 0), Nat.toDigits 10 (n.natAbs / 10 ^ decimals),
        (Text.paddedDigits decimals (n.natAbs % 10 ^ decimals)).toList⟩ decimals = n := by
  have hunit : n.natAbs % 10 ^ decimals < 10 ^ decimals := Nat.mod_lt _ (by decide)
  have hlen := Text.length_paddedDigits (by decide) hunit
  have hdigits : Text.natOfDigits (Nat.toDigits 10 (n.natAbs / 10 ^ decimals)
      ++ (Text.paddedDigits decimals (n.natAbs % 10 ^ decimals)).toList) = n.natAbs := by
    rw [Text.natOfDigits_append, Text.natOfDigits_toDigits, Text.natOfDigits_paddedDigits, hlen,
      Nat.div_add_mod]
  have hone : n.natAbs * Nat.pow 10 0 = n.natAbs := Nat.mul_one _
  unfold Text.Decimal.scaled Text.Decimal.digits
  simp only [hdigits, hlen, Nat.sub_self, hone]
  by_cases hn : n < 0
  · rw [if_pos (decide_eq_true hn)]
    omega
  · rw [if_neg (by simpa using hn)]
    omega

/-- **An amount is read from its text**, the least one included. -/
theorem ofText_text (a : Amount) : ofText a.text = .ok a := by
  have hunit : a.stroops.toInt.natAbs % 10 ^ decimals < 10 ^ decimals := Nat.mod_lt _ (by decide)
  have hlen := Text.length_paddedDigits (by decide) hunit
  have hparts := Text.Decimal.ofText?_numeral Nat.toDigits_ne_nil
    (fun _ => Text.isDigit_of_mem_toDigits) (fun _ => Text.isDigit_of_mem_paddedDigits)
    (toList_textOfStroops a.stroops.toInt)
  have hrange : -0x8000000000000000 ≤ a.stroops.toInt ∧ a.stroops.toInt < 0x8000000000000000 :=
    ⟨a.stroops.le_toInt, a.stroops.toInt_lt⟩
  unfold ofText text
  rw [hparts]
  simp only [hlen, Nat.lt_irrefl, if_false, scaled_textOfStroops, if_pos hrange]
  rw [Int64.ofInt_toInt]

end Amount

/-! ### Keys -/

namespace Strkey

/-- A key of a fixed size comes back from its text. -/
theorem decodeFixed_encode {n : Nat} (v : Version) (key : Vector UInt8 n) :
    decodeFixed n v (encode v key.toList) = .ok key := by
  unfold decodeFixed
  rw [decode_eq_ok_iff.2 rfl]
  simp only [bind, Except.bind, Bytes.fixed?_toList]
  rfl

end Strkey

/-- An account comes back from its text. -/
theorem AccountId.ofText_text (a : AccountId) : AccountId.ofText a.text = .ok a := by
  unfold AccountId.ofText AccountId.text AccountId.toList
  rw [Strkey.decodeFixed_encode]
  rfl

/-- Texts of accounts start with the letter of accounts. -/
theorem AccountId.head?_text (a : AccountId) : a.text.toList.head? = some 'G' :=
  Strkey.head?_encode .accountId a.toList

namespace MuxedAccount

/-- The payload of a muxed account is the key and the number behind it. -/
theorem ofPayload_append (key : Vector UInt8 32) (id : UInt64) :
    ofPayload (key.toList ++ Bytes.bigEndian 8 id.toNat) = .ok (.muxed id ⟨key⟩) := by
  have hkey : Bytes.fixed? 32 ((key.toList ++ Bytes.bigEndian 8 id.toNat).take 32) = some key := by
    rw [List.take_left' (by simp)]
    exact Bytes.fixed?_toList key
  have hid : Bytes.fixed? 8 ((key.toList ++ Bytes.bigEndian 8 id.toNat).drop 32)
      = some ⟨(Bytes.bigEndian 8 id.toNat).toArray, by simp⟩ := by
    rw [List.drop_left' (by simp)]
    exact dif_pos (by simp)
  have hnat : Bytes.toNat (Bytes.bigEndian 8 id.toNat) = id.toNat := by
    have hlt := id.toNat_lt
    rw [Bytes.toNat_bigEndian]
    omega
  unfold ofPayload
  rw [hkey, hid]
  simp [Vector.toList, hnat]

/-- The number makes the kind, and the kind the first character. -/
theorem ofText_text (m : MuxedAccount) : ofText m.text = .ok m := by
  cases m with
  | ed25519 account =>
      unfold ofText text
      rw [if_neg (by rw [account.head?_text]; decide), account.ofText_text]
      rfl
  | muxed id account =>
      unfold ofText text
      rw [if_pos (Strkey.head?_encode ..), Strkey.decode_eq_ok_iff.2 rfl]
      exact ofPayload_append account.key id

end MuxedAccount

/-- A contract comes back from its text. -/
theorem ContractId.ofText_text (c : ContractId) : ContractId.ofText c.text = .ok c := by
  unfold ContractId.ofText ContractId.text Hash.toList
  rw [Strkey.decodeFixed_encode]
  rfl

/-- An address comes back from its text, whichever of the five kinds it is. -/
theorem ScAddress.ofText_text (a : ScAddress) : ScAddress.ofText a.text = .ok a := by
  cases a with
  | account id =>
      unfold ScAddress.ofText ScAddress.text
      rw [if_neg (by rw [id.head?_text]; decide), id.ofText_text]
      rfl
  | contract id =>
      have hhead : id.text.toList.head? = some Strkey.Version.contract.letter :=
        Strkey.head?_encode .contract id.hash.toList
      unfold ScAddress.ofText ScAddress.text
      rw [if_pos hhead, id.ofText_text]
      rfl

/-! ### Signers -/

namespace SignerKey

/-- What `payloadBytes` are, but for the bytes that fill up the payload. -/
def filledBytes (account : AccountId) (payload filling : Bytes) : Bytes :=
  account.toList ++ Bytes.bigEndian 4 payload.length ++ payload ++ filling

/-- The reader of payloads counts the bytes behind the payload and does not look at them. -/
theorem ofPayloadBytes_filledBytes (account : AccountId) {payload filling : Bytes}
    (h : payload.length ≤ Limits.signedPayload.toNat)
    (hfilling : filling.length = paddingFor payload.length) :
    ofPayloadBytes (filledBytes account payload filling)
      = .ok (.signedPayload account payload) := by
  have hbound : Limits.signedPayload.toNat = 64 := rfl
  have hkey : account.toList.length = 32 := by simp [AccountId.toList]
  have hraw : filledBytes account payload filling = account.toList
      ++ (Bytes.bigEndian 4 payload.length ++ (payload ++ filling)) := by
    simp [filledBytes]
  have hcount : Bytes.toNat (Bytes.bigEndian 4 payload.length) = payload.length := by
    rw [Bytes.toNat_bigEndian]
    omega
  have hlength : Bytes.toNat (((filledBytes account payload filling).drop 32).take 4)
      = payload.length := by
    rw [hraw, List.drop_left' hkey, List.take_left' (Bytes.length_bigEndian ..), hcount]
  have hpayload : ((filledBytes account payload filling).drop 36).take payload.length
      = payload := by
    rw [hraw, ← List.append_assoc, List.drop_left' (by simp [hkey]), List.take_left]
  have hsize : (filledBytes account payload filling).length
      = 36 + payload.length + paddingFor payload.length := by
    simp [hraw, hkey, hfilling]
    omega
  have hfixed : Bytes.fixed? 32 ((filledBytes account payload filling).take 32)
      = some account.key := by
    rw [hraw, List.take_left' hkey]
    exact Bytes.fixed?_toList account.key
  unfold ofPayloadBytes
  simp only [hlength, hfixed]
  rw [if_neg (by omega), hpayload]

/-- **A signer is read from its text**, if its payload is within the bound. -/
theorem ofText_text {k : SignerKey} (h : k.validate = .ok ()) : ofText k.text = .ok k := by
  cases k with
  | ed25519 account =>
      unfold ofText text
      simp only [account.head?_text, account.ofText_text]
      rfl
  | preAuthTx hash =>
      have hhead : (Strkey.encode .preAuthTx hash.toList).toList.head? = some 'T' :=
        Strkey.head?_encode ..
      unfold ofText text
      simp only [hhead]
      rw [Hash.toList, Strkey.decodeFixed_encode]
      rfl
  | hashX hash =>
      have hhead : (Strkey.encode .sha256Hash hash.toList).toList.head? = some 'X' :=
        Strkey.head?_encode ..
      unfold ofText text
      simp only [hhead]
      rw [Hash.toList, Strkey.decodeFixed_encode]
      rfl
  | signedPayload account payload =>
      have hhead : (Strkey.encode .signedPayload (payloadBytes account payload)).toList.head?
          = some 'P' := Strkey.head?_encode ..
      have hbound : payload.length ≤ Limits.signedPayload.toNat := by
        by_contra hlong
        rw [validate, if_neg hlong] at h
        cases h
      unfold ofText text
      simp only [hhead]
      rw [Strkey.decode_eq_ok_iff.2 rfl]
      exact ofPayloadBytes_filledBytes account hbound List.length_replicate

end SignerKey

/-! ### Assets -/

namespace Asset

variable {width : CodeWidth} {code : String}

/-- A code that obeys its rules has no colon in it. -/
theorem colon_notMem_of_checkCode (h : checkCode width code = .ok ()) : ':' ∉ code.toList := by
  intro hmem
  obtain ⟨-, -, hall⟩ := codeViolation?_eq_none_iff.1 (checkCode_eq_ok_iff.1 h)
  have hcolon := List.all_eq_true.1 hall _ (Text.letter_mem_ofString (by decide) hmem)
  cases hcolon

/-- The length of a code that obeys its rules gives its width. -/
theorem ofLength_of_checkCode (h : checkCode width code = .ok ()) :
    CodeWidth.ofLength code.utf8ByteSize = width := by
  obtain ⟨hlow, hhigh, -⟩ := codeViolation?_eq_none_iff.1 (checkCode_eq_ok_iff.1 h)
  rw [Text.length_ofString] at hlow hhigh
  cases width with
  | four => exact if_pos hhigh
  | twelve =>
      have hlow : 5 ≤ code.utf8ByteSize := hlow
      exact if_neg (by omega)

/-- **An asset is read from its text**, if its code obeys the rules of its width. -/
theorem ofText_text {a : Asset} (h : a.validate = .ok ()) : ofText a.text = .ok a := by
  cases a with
  | native => rfl
  | credit width c =>
      obtain ⟨code, issuer⟩ := c
      have hcode : checkCode width code = .ok () := h
      have hcolon := colon_notMem_of_checkCode hcode
      have htext : (Asset.text (.credit width ⟨code, issuer⟩)).toList
          = code.toList ++ ':' :: issuer.text.toList := by
        simp [text, String.toList_append]
      have hne : Asset.text (.credit width ⟨code, issuer⟩) ≠ "native" := by
        intro heq
        have hmem : ':' ∈ "native".toList := by
          rw [← heq, htext]
          simp
        revert hmem
        decide
      have hfront : ∀ c ∈ code.toList, decide (c ≠ ':') = true := by
        intro c hc
        refine decide_eq_true ?_
        rintro rfl
        exact hcolon hc
      have htake :
          (code.toList ++ ':' :: issuer.text.toList).takeWhile (· ≠ ':') = code.toList := by
        rw [List.takeWhile_append_of_pos hfront]
        simp
      have hdrop : ((code.toList ++ ':' :: issuer.text.toList).dropWhile (· ≠ ':')).drop 1
          = issuer.text.toList := by
        rw [List.dropWhile_append_of_pos hfront]
        simp
      unfold ofText
      rw [if_neg hne]
      simp only [htext, htake, hdrop, String.ofList_toList, issuer.ofText_text]
      have hmake : Credit.make width code issuer = .ok ⟨code, issuer⟩ :=
        checked_eq_ok_iff.2 ⟨hcode, rfl⟩
      rw [if_pos (by simp), ofCredit, ofLength_of_checkCode hcode, hmake]
      rfl

/-- The text does not say how wide the code is: one that is too short for its width is read as one
of the other width. -/
example : ofText (text (.credit .twelve ⟨"ABC", ⟨Vector.replicate 32 1⟩⟩))
    = .ok (.credit .four ⟨"ABC", ⟨Vector.replicate 32 1⟩⟩) := by decide +kernel

end Asset

end LedgerWire
