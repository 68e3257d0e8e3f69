/-
# Spellings of hashes, pools and balances

Where a hash names something, its digits may be in either case. A pool has a strkey besides them. A
balance has one too, and its digits may have those of its type in front. These lists are complete:
a reader takes nothing else, and takes no spelling for the wrong name.

* `Hash.ofText_eq_ok_iff`, `PoolId.ofText_eq_ok_iff`, `ClaimableBalanceId.ofText_eq_ok_iff` — the
  spellings of a name.
* `ClaimableBalanceId.ofBytes_eq_ok_iff` — the bytes that stand for a balance.
* `Hash.ofText_text`, … — the text that a name is shown as is one of its spellings.
* `spellings_complete` — all of them, and the wire form that they lead to.
-/

import LedgerWire.Proofs.Text.Hex
import LedgerWire.Proofs.Types.Writable
import LedgerWire.Proofs.UniqueNames
import LedgerWire.Proofs.Wire.Strict

namespace LedgerWire

variable {s : String} {bytes : Bytes}

/-! ### Hashes -/

/-- The texts of a hash are its hexadecimal digits, in either case. -/
theorem Hash.ofText_eq_ok_iff {h : Hash} : ofText s = .ok h ↔ s.toLower = h.text := by
  constructor
  · intro hread
    obtain ⟨digits, hdigits, rfl⟩ := exists_of_map_eq_ok hread
    exact Hex.decodeFixed_eq_ok_iff.1 hdigits
  · intro hlower
    unfold ofText
    rw [Hex.decodeFixed_eq_ok_iff.2 hlower]
    rfl

/-- A hash is read back from its own text. -/
theorem Hash.ofText_text (h : Hash) : ofText h.text = .ok h :=
  ofText_eq_ok_iff.2 (Hex.toLower_encode h.toList)

/-! ### Pools -/

namespace PoolId

variable {p : PoolId}

/-- **The spellings of a pool.** No digit is the letter of its strkey, in either case. -/
theorem ofText_eq_ok_iff : ofText s = .ok p ↔ s.toLower = p.hash.text ∨ s = p.strkey := by
  obtain ⟨⟨key⟩⟩ := p
  unfold ofText
  by_cases hhead : s.toList.head? = some Strkey.Version.liquidityPool.letter
  -- L is no hexadecimal digit, so the first letter tells the spellings apart.
  · have hdigits : s.toLower ≠ Hash.text ⟨key⟩ := fun h =>
      Hex.head?_ne_of_toLower (by decide) h hhead
    have hstrkey : s = strkey ⟨⟨key⟩⟩ ↔ Strkey.decodeFixed 32 .liquidityPool s = .ok key :=
      Strkey.decodeFixed_eq_ok_iff.symm
    rw [if_pos hhead, or_iff_right hdigits, hstrkey]
    cases Strkey.decodeFixed 32 .liquidityPool s with
    | error fault => simp
    | ok read => simp
  · have hstrkey : s ≠ strkey ⟨⟨key⟩⟩ := by
      rintro rfl
      exact hhead (Strkey.head?_encode ..)
    rw [if_neg hhead, or_iff_left hstrkey, ← Hash.ofText_eq_ok_iff]
    cases Hash.ofText s with
    | error fault => simp
    | ok read => simp

/-- A pool is read back from its own text. -/
theorem ofText_text (p : PoolId) : ofText p.text = .ok p :=
  ofText_eq_ok_iff.2 (.inl (Hex.toLower_encode p.hash.toList))

/-- A pool on the wire is its hash. -/
theorem encode_eq (p : PoolId) : schema.wire.encode p = .ok p.hash.toList := by
  have hwrites : schema.wire.Writes p p.hash.toList :=
    Put.appends_padded_of_dvd (by simp)
  exact hwrites.encode_eq

end PoolId

/-! ### Balances -/

namespace ClaimableBalanceId

variable {b : ClaimableBalanceId}

theorem length_toList (b : ClaimableBalanceId) : b.hash.toList.length = 32 := by simp [Hash.toList]

/-- A balance on the wire is its type, which is four zero bytes, and its hash. -/
theorem encode_eq (b : ClaimableBalanceId) :
    schema.wire.encode b = .ok (List.replicate 4 0 ++ b.hash.toList) := by
  have hhash : Put.Appends (Put.padded b.hash.toList) (.ok ()) b.hash.toList :=
    Put.appends_padded_of_dvd (by simp [b.length_toList])
  have hwrites : schema.wire.Writes b (Bytes.word 0 ++ b.hash.toList) :=
    (Put.appends_u32 0).bind hhash
  exact hwrites.encode_eq

/-- The bytes of a balance are a word of zero and those of its hash. -/
theorem decode_eq_ok_iff :
    schema.wire.decode bytes = .ok b ↔ bytes = List.replicate 4 0 ++ b.hash.toList := by
  rw [(flat Reader.defaultLimit).decode_eq_ok_iff_encode (Codec.strict_of_writable writable),
    b.encode_eq, Except.ok.injEq]
  exact ⟨fun h => h.2.symm, fun h => ⟨Nat.zero_le _, h.symm⟩⟩

/-- **The bytes that stand for a balance.** Their number says whether the type is in front. -/
theorem ofBytes_eq_ok_iff :
    ofBytes bytes = .ok b
      ↔ bytes = b.hash.toList ∨ bytes = List.replicate 4 0 ++ b.hash.toList := by
  constructor
  · intro h
    unfold ofBytes at h
    split at h
    · rename_i hash hfixed
      cases h
      exact .inl (Bytes.fixed?_eq_some_iff.1 hfixed)
    · split at h
      · exact .inr (decode_eq_ok_iff.1 h)
      · cases h
  -- The two spellings differ in length, so each is read by its own rule.
  · rintro (rfl | rfl)
    · unfold ofBytes Hash.toList
      rw [Bytes.fixed?_toList]
    · have hlength : (List.replicate 4 0 ++ b.hash.toList).length = 36 := by
        simp [b.length_toList]
      unfold ofBytes Bytes.fixed?
      rw [dif_neg (by rw [hlength]; decide)]
      simp only [hlength, if_true]
      exact decode_eq_ok_iff.2 rfl

/-! #### Digits -/

/-- The text of a balance is that of its hash behind eight zeros. -/
theorem text_eq (b : ClaimableBalanceId) : b.text = "00000000" ++ b.hash.text :=
  Hex.encode_append (List.replicate 4 0) b.hash.toList

/-- **The hexadecimal spellings** are the digits of the hash and those of the encoded balance. -/
theorem ofHex_eq_ok_iff : ofHex s = .ok b ↔ s.toLower = b.hash.text ∨ s.toLower = b.text := by
  constructor
  · intro h
    unfold ofHex at h
    cases hread : Hex.decode s with
    | error fault =>
        rw [hread] at h
        cases h
    | ok bytes =>
        rw [hread] at h
        have hlower := Hex.decode_eq_ok_iff.1 hread
        rcases ofBytes_eq_ok_iff.1 h with rfl | rfl
        · exact .inl hlower
        · exact .inr hlower
  · rintro (h | h)
    · unfold ofHex
      rw [Hex.decode_eq_ok_iff.2 h]
      exact ofBytes_eq_ok_iff.2 (.inl rfl)
    · unfold ofHex
      rw [Hex.decode_eq_ok_iff.2 h]
      exact ofBytes_eq_ok_iff.2 (.inr rfl)

/-! #### Strkeys -/

/-- The strkey of a balance has the length that tells it from the other spellings. -/
theorem utf8ByteSize_strkey (b : ClaimableBalanceId) : b.strkey.utf8ByteSize = strkeyLength := by
  have hsize := Strkey.utf8ByteSize_encode .claimableBalance (0 :: b.hash.toList)
  rw [List.length_cons, b.length_toList] at hsize
  have hfill : Base32.alphabet.fill ((32 + 1 + 3) * 8) = 2 := by decide
  have hlength : strkeyLength = 58 := rfl
  unfold strkey
  omega

/-- The payload of a strkey is a zero byte and the hash. -/
theorem ofStrkeyPayload_eq_ok_iff :
    ofStrkeyPayload bytes = .ok b ↔ bytes = 0 :: b.hash.toList := by
  constructor
  · intro h
    unfold ofStrkeyPayload at h
    simp only at h
    split at h
    · cases h
    · rename_i type hash
      by_cases htype : type = 0
      · rw [if_neg (not_not_intro htype)] at h
        split at h
        · rename_i read hfixed
          cases h
          rw [htype, Bytes.fixed?_eq_some_iff.1 hfixed]
          rfl
        · cases h
      · rw [if_pos htype] at h
        cases h
  · rintro rfl
    unfold ofStrkeyPayload Hash.toList
    simp only
    rw [if_neg (not_not_intro rfl), Bytes.fixed?_toList]

/-- **The spellings of a balance.** A digit may be the letter of its strkey; but the digits are more
than the characters of a strkey. -/
theorem ofText_eq_ok_iff :
    ofText s = .ok b ↔ s.toLower = b.hash.text ∨ s.toLower = b.text ∨ s = b.strkey := by
  unfold ofText
  by_cases hkey : s.toList.head? = some Strkey.Version.claimableBalance.letter
      ∧ s.utf8ByteSize = strkeyLength
  · have hlength : s.utf8ByteSize = 58 := hkey.2
    have hhash : s.toLower ≠ b.hash.text := by
      intro h
      have hsize := Hex.utf8ByteSize_of_toLower h
      rw [b.length_toList] at hsize
      omega
    have htext : s.toLower ≠ b.text := by
      intro h
      have hsize := Hex.utf8ByteSize_of_toLower h
      rw [List.length_append, b.length_toList, List.length_replicate] at hsize
      omega
    have hstrkey : s = b.strkey
        ↔ Strkey.decode .claimableBalance s = .ok (0 :: b.hash.toList) :=
      Strkey.decode_eq_ok_iff.symm
    rw [if_pos hkey, or_iff_right hhash, or_iff_right htext, hstrkey]
    cases Strkey.decode .claimableBalance s with
    | error fault => simp
    | ok payload => simp [ofStrkeyPayload_eq_ok_iff]
  · have hstrkey : s ≠ b.strkey := by
      rintro rfl
      exact hkey ⟨Strkey.head?_encode .., b.utf8ByteSize_strkey⟩
    rw [if_neg hkey, or_iff_left hstrkey]
    exact ofHex_eq_ok_iff

/-- A claimable balance is read back from its own text. -/
theorem ofText_text (b : ClaimableBalanceId) : ofText b.text = .ok b :=
  ofText_eq_ok_iff.2 (.inr (.inl (Hex.toLower_encode _)))

end ClaimableBalanceId

/-! ### All spellings -/

/-- **Balances and pools have these spellings and no others.** A text is read as a balance exactly
if it is the digits of the hash, in any case, with or without eight zeros in front, or the strkey;
and as a pool exactly if it is the digits of the hash, in any case, or the strkey. Bytes are read as
a balance exactly if they are the hash, with or without four zero bytes in front. Whichever spelling
a name was read from, it is written as the same bytes. -/
theorem spellings_complete :
    (∀ s (b : ClaimableBalanceId), ClaimableBalanceId.ofText s = .ok b
        ↔ s.toLower = b.hash.text ∨ s.toLower = "00000000" ++ b.hash.text ∨ s = b.strkey)
      ∧ (∀ s (p : PoolId), PoolId.ofText s = .ok p ↔ s.toLower = p.hash.text ∨ s = p.strkey)
      ∧ (∀ bytes (b : ClaimableBalanceId), ClaimableBalanceId.ofBytes bytes = .ok b
        ↔ bytes = b.hash.toList ∨ bytes = [0, 0, 0, 0] ++ b.hash.toList)
      ∧ (∀ s (b : ClaimableBalanceId),
          s.toLower = b.hash.text ∨ s.toLower = "00000000" ++ b.hash.text ∨ s = b.strkey →
          (ClaimableBalanceId.ofText s >>= ClaimableBalanceId.schema.wire.encode)
            = .ok ([0, 0, 0, 0] ++ b.hash.toList))
      ∧ (∀ bytes (b : ClaimableBalanceId),
          bytes = b.hash.toList ∨ bytes = [0, 0, 0, 0] ++ b.hash.toList →
          (ClaimableBalanceId.ofBytes bytes >>= ClaimableBalanceId.schema.wire.encode)
            = .ok ([0, 0, 0, 0] ++ b.hash.toList))
      ∧ ∀ s (p : PoolId), s.toLower = p.hash.text ∨ s = p.strkey →
          (PoolId.ofText s >>= PoolId.schema.wire.encode) = .ok p.hash.toList := by
  have hbalance : ∀ s (b : ClaimableBalanceId), ClaimableBalanceId.ofText s = .ok b
      ↔ s.toLower = b.hash.text ∨ s.toLower = "00000000" ++ b.hash.text ∨ s = b.strkey := by
    intro s b
    rw [← b.text_eq]
    exact ClaimableBalanceId.ofText_eq_ok_iff
  refine ⟨hbalance, fun s p => PoolId.ofText_eq_ok_iff,
    fun bytes b => ClaimableBalanceId.ofBytes_eq_ok_iff, fun s b h => ?_, fun bytes b h => ?_,
    fun s p h => ?_⟩
  · rw [(hbalance s b).2 h]
    exact b.encode_eq
  · rw [ClaimableBalanceId.ofBytes_eq_ok_iff.2 h]
    exact b.encode_eq
  · rw [PoolId.ofText_eq_ok_iff.2 h]
    exact p.encode_eq

/-- A text of digits that starts with the letter of strkeys, in upper case, and the strkey of the
same balance are read alike. -/
theorem spellings_complete_letterB :
    (ClaimableBalanceId.ofText (String.ofList (List.replicate 64 'B'))
        >>= ClaimableBalanceId.schema.wire.encode)
      = .ok ([0, 0, 0, 0] ++ List.replicate 32 0xBB)
    ∧ (ClaimableBalanceId.ofText (ClaimableBalanceId.strkey ⟨⟨Vector.replicate 32 0xBB⟩⟩)
        >>= ClaimableBalanceId.schema.wire.encode)
      = .ok ([0, 0, 0, 0] ++ List.replicate 32 0xBB) := by
  have hlower : (String.ofList (List.replicate 64 'B')).toLower
      = Hash.text ⟨Vector.replicate 32 0xBB⟩ := by decide +kernel
  exact ⟨spellings_complete.2.2.2.1 _ ⟨⟨Vector.replicate 32 0xBB⟩⟩ (.inl hlower),
    spellings_complete.2.2.2.1 _ ⟨⟨Vector.replicate 32 0xBB⟩⟩ (.inr (.inr rfl))⟩

end LedgerWire
