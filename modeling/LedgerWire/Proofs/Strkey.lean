/-
# Texts of keys

A text of a key is read as the payload that it was written for, under the version that it was
written under, and under no other.

* `Strkey.decode_eq_ok_iff` — a text is read exactly if it is the text of its payload.
* `Strkey.head?_encode` — the version shows in the first character.
* `Strkey.one_to_one` — both, and what a reader says that wants another version.
* `Strkey.decode_replaced` — no text of a key is one character away from another.
-/

import LedgerWire.Proofs.Text.Base32
import LedgerWire.Proofs.Text.Crc16
import LedgerWire.Strkey

namespace LedgerWire.Strkey

variable {v w : Version} {payload : Bytes} {s : String}

/-! ### Versions -/

/-- The first symbol is the upper five bits of the version byte. -/
theorem Version.byte_div (v : Version) : v.byte.toNat / 8 = v.symbol := by cases v <;> rfl

/-- The version bytes are all different. -/
theorem Version.byte_injective (h : v.byte = w.byte) : v = w := by
  have hsymbol : v.symbol = w.symbol := by rw [← v.byte_div, h, w.byte_div]
  cases v <;> cases w <;> first | rfl | cases hsymbol

/-- **The version shows in the first character of every text.** -/
theorem head?_encode (v : Version) (payload : Bytes) :
    (encode v payload).toList.head? = some v.letter := by
  rw [Version.letter, ← v.byte_div]
  exact Base32.head?_encode v.byte _

/-! ### Bytes with their checksum -/

@[simp] theorem length_tail (body : Bytes) : (Crc16.tail body).length = 2 := rfl

/-- The checksum takes the last two bytes. -/
theorem take_sealed (body : Bytes) : (sealed body).take ((sealed body).length - 2) = body := by
  rw [sealed, List.length_append, length_tail, Nat.add_sub_cancel, List.take_left]

/-- The length of a text: a version, the payload and a checksum. -/
theorem utf8ByteSize_encode (v : Version) (payload : Bytes) :
    (encode v payload).utf8ByteSize * 5 = (payload.length + 3) * 8
      + Base32.alphabet.fill ((payload.length + 3) * 8) := by
  rw [encode, Base32.utf8ByteSize_encode, sealed, List.length_append, length_tail, List.length_cons]

/-- Bytes are read from their own base32 text, and from no other. -/
theorem rawBytes_eq_ok_iff {raw : Bytes} : rawBytes s = .ok raw ↔ s = Base32.encode raw := by
  rw [← Base32.decode_eq_ok_iff]
  unfold rawBytes
  simp only
  generalize Base32.decode (Bytes.ofString s) = read
  rcases read with (_ | _ | _) | bytes
  · simp
  · simp
  · simp
  · simp

/-- The bytes that the text of a payload spells. -/
theorem rawBytes_encode (v : Version) (payload : Bytes) :
    rawBytes (encode v payload) = .ok (sealed (v.byte :: payload)) :=
  rawBytes_eq_ok_iff.2 rfl

/-! ### Reading -/

section Reading

variable {raw : Bytes} {version : UInt8}

/-- Bytes that have no room for a version are too few. -/
theorem decode_of_nil (hraw : rawBytes s = .ok raw) (hbody : raw.take (raw.length - 2) = []) :
    decode v s = .error (.length s.utf8ByteSize) := by
  unfold decode
  rw [hraw]
  simp only [bind, Except.bind, hbody]
  rfl

/-- The version is judged first, and then the checksum. -/
theorem decode_of_cons (hraw : rawBytes s = .ok raw)
    (hbody : raw.take (raw.length - 2) = version :: payload) :
    decode v s =
      if version ≠ v.byte then .error (.version v.letter (s.toList.headD '?'))
      else if raw ≠ sealed (version :: payload) then .error .checksum
      else .ok payload := by
  unfold decode
  rw [hraw]
  simp only [bind, Except.bind, hbody]
  by_cases hversion : version = v.byte
  · subst hversion
    by_cases hsealed : raw = sealed (v.byte :: payload)
    · simp [hsealed, pure, Except.pure]
    · simp [hsealed, throw, throwThe, MonadExceptOf.throw]
  · simp [hversion, throw, throwThe, MonadExceptOf.throw]

end Reading

/-- **A text is read exactly if it is the text of its payload.** -/
theorem decode_eq_ok_iff : decode v s = .ok payload ↔ s = encode v payload := by
  constructor
  · intro h
    cases hraw : rawBytes s with
    | error fault =>
        unfold decode at h
        rw [hraw] at h
        cases h
    | ok raw =>
        cases hbody : raw.take (raw.length - 2) with
        | nil =>
            rw [decode_of_nil hraw hbody] at h
            cases h
        | cons version rest =>
            rw [decode_of_cons hraw hbody] at h
            -- One way through the checks is left: the version asked for and the right checksum.
            by_cases hversion : version = v.byte
            · by_cases hsealed : raw = sealed (version :: rest)
              · rw [if_neg (not_not.2 hversion), if_neg (not_not.2 hsealed)] at h
                cases h
                rw [rawBytes_eq_ok_iff.1 hraw, hsealed, hversion, encode]
              · rw [if_neg (not_not.2 hversion), if_pos hsealed] at h
                cases h
            · rw [if_pos hversion] at h
              cases h
  · rintro rfl
    rw [decode_of_cons (rawBytes_encode v payload) (take_sealed _)]
    simp

/-- Under one version, different payloads have different texts. -/
theorem encode_injective (v : Version) : Function.Injective (encode v) := by
  intro payload payload' h
  have hread : decode v (encode v payload) = .ok payload' := decode_eq_ok_iff.2 h
  rw [decode_eq_ok_iff.2 rfl] at hread
  exact Except.ok.inj hread

/-- **A reader that wants another version names both.** -/
theorem decode_encode_of_ne (h : w ≠ v) (payload : Bytes) :
    decode w (encode v payload) = .error (.version w.letter v.letter) := by
  have hhead : (encode v payload).toList.headD '?' = v.letter := by
    rw [List.headD_eq_head?_getD, head?_encode]
    rfl
  have hbyte : v.byte ≠ w.byte := fun heq => h (Version.byte_injective heq).symm
  rw [decode_of_cons (rawBytes_encode v payload) (take_sealed _), if_pos hbyte, hhead]

/-- Under different versions, texts are different. -/
theorem encode_ne_of_ne (h : v ≠ w) (payload payload' : Bytes) :
    encode v payload ≠ encode w payload' := by
  intro heq
  have hread := decode_encode_of_ne h.symm payload
  rw [heq, decode_eq_ok_iff.2 rfl] at hread
  cases hread

/-- **Under each version, texts and payloads belong together one to one.** A text is read as a
payload exactly if it was written for it; its first character is the letter of the version, which is
that of the version byte alone; and wherever another version is wanted, it is refused with the
letters of both. -/
theorem one_to_one (v : Version) :
    (∀ payload s, decode v s = .ok payload ↔ s = encode v payload)
      ∧ (∀ payload, (encode v payload).toList.head? = some v.letter)
      ∧ (Base32.encode [v.byte]).toList.head? = some v.letter
      ∧ ∀ w payload, w ≠ v →
        decode w (encode v payload) = .error (.version w.letter v.letter) := by
  refine ⟨fun payload s => decode_eq_ok_iff, head?_encode v, ?_, fun w payload h => ?_⟩
  · rw [Version.letter, ← v.byte_div]
    exact Base32.head?_encode v.byte []
  · exact decode_encode_of_ne h payload

/-- No secret is taken for the name of an account. -/
theorem one_to_one_secretSeed :
    decode .accountId (encode .secretSeed (List.replicate 32 0)) = .error (.version 'G' 'S') :=
  (one_to_one .secretSeed).2.2.2 .accountId _ (by decide)

/-! ### Texts with a wrong character -/

section Errors

variable {body body' : Bytes} {front back : List Char} {c c' : Char}

/-- A character is five bits of a byte string and its checksum: texts that are the same but for one
character are texts of the same bytes. -/
theorem eq_of_one_character (h : Base32.alphabet.encode (sealed body) = front ++ c :: back)
    (h' : Base32.alphabet.encode (sealed body') = front ++ c' :: back) : body = body' := by
  have hlength : (sealed body).length = (sealed body').length :=
    Base32.lawful_alphabet.length_eq_of_length_encode_eq (by rw [h, h']; simp)
  have hbits := Base32.lawful_alphabet.filled_eq (sealed body)
  have hbits' := Base32.lawful_alphabet.filled_eq (sealed body')
  rw [h, List.flatMap_append, List.flatMap_cons] at hbits
  rw [h', List.flatMap_append, List.flatMap_cons] at hbits'
  exact Crc16.eq_of_window (by simpa [sealed] using hlength) (by simp) (by simp [Base32.alphabet])
    hbits hbits'

/-- **Texts of keys that differ in one place at most are equal**, by the checksum. -/
theorem encode_eq_of_one_character {read : Bytes}
    (h : (encode v payload).toList = front ++ c :: back)
    (h' : (encode w read).toList = front ++ c' :: back) : encode v payload = encode w read := by
  have hbody := eq_of_one_character
    (by rwa [encode, Base32.encode, String.toList_ofList] at h)
    (by rwa [encode, Base32.encode, String.toList_ofList] at h')
  rw [encode, encode, hbody]

/-- **No text of a key is one character away from another**: whichever character is replaced by
whichever other one, and whatever version is wanted, the text is refused. -/
theorem decode_replaced (v w : Version) (payload : Bytes) {i : Nat}
    (hc : (encode v payload).toList[i]? = some c) (hne : c' ≠ c) :
    ∃ fault, decode w (String.ofList ((encode v payload).toList.set i c')) = .error fault := by
  cases hdecode : decode w (String.ofList ((encode v payload).toList.set i c')) with
  | error fault => exact ⟨fault, rfl⟩
  | ok read =>
      obtain ⟨hi, hget⟩ := List.getElem?_eq_some_iff.1 hc
      have htext : (encode v payload).toList
          = (encode v payload).toList.take i ++ c :: (encode v payload).toList.drop (i + 1) := by
        rw [← hget, List.getElem_cons_drop, List.take_append_drop]
      have hread := congrArg String.toList (decode_eq_ok_iff.1 hdecode)
      rw [String.toList_ofList, List.set_eq_take_append_cons_drop, if_pos hi] at hread
      rw [← encode_eq_of_one_character htext hread.symm] at hread
      exact absurd (List.cons.inj (List.append_cancel_left (hread.trans htext))).1 hne

end Errors

/-- In the text of an account, this character is the last bits of the key and the first ones of its
checksum. -/
theorem decode_replaced_border :
    (encode .accountId (List.replicate 32 0)).toList[52]? = some 'A'
      ∧ ∃ fault, decode .accountId
          (String.ofList ((encode .accountId (List.replicate 32 0)).toList.set 52 'B'))
        = .error fault :=
  have hc : (encode .accountId (List.replicate 32 0)).toList[52]? = some 'A' := by decide +kernel
  ⟨hc, decode_replaced .accountId .accountId _ hc (by decide)⟩

end LedgerWire.Strkey
