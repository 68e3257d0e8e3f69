/-
# Rules that no validation foresees

Most types with rules judge them all before they write a value (`LedgerWire.Proofs.Encodability`).
Two do not. The operation that ends a sponsorship judges the names of data entries and the keys of
signers, but not the assets of trust lines and the keys of contract data; an account judges how many
signers it has, but not how many sponsors of signers. What is left is found broken while the value
is written.

* `LedgerKey.LateRule`, `RevokeSponsorshipOp.LateRule` — the rule that validation leaves out.
* `sponsorship_written` — when an operation is written, and what it is refused for.
* `AccountEntry.sponsors` — the slots for sponsors, whose number has a bound.
* `account_written` — when an account is written, and when only its start.
-/

import LedgerWire.Proofs.ContractValues

namespace LedgerWire

open Codec

/-! ### Keys of ledger entries -/

/-- A trust line's asset is written exactly if a plain one is valid; a pool share asks nothing. -/
theorem TrustLineAsset.writable_iff {asset : TrustLineAsset} :
    TrustLineAsset.schema.wire.Writable asset ↔ ∀ a, asset = .asset a → a.validate = .ok () := by
  cases asset using LineAsset.assetOrShare with
  | asset a =>
      have hput : TrustLineAsset.schema.wire.put (.asset a) = Asset.schema.wire.put a := by
        rcases a with _ | ⟨_ | _, c⟩ <;> rfl
      refine (writable_congr hput).trans (Asset.writable_iff.trans ?_)
      simp [LineAsset.asset_inj]
  | poolShare pool =>
      exact iff_of_true (.behind rfl pool.writable) fun a h =>
        absurd h (LineAsset.poolShare_ne_asset pool a)

namespace LedgerKey

/-- How writing the one part ends that is not judged before a key is written: the asset of a trust
line, or the value that a contract keeps data under. -/
def lateVerdict : LedgerKey → Except WireError Unit
  | .trustline _ asset => TrustLineAsset.schema.wire.verdict asset
  | .contractData _ key _ => ScVal.schema.wire.verdict key
  | _ => .ok ()

/-- The asset of a trust line is valid, and so is every value in the key of contract data. -/
def LateRule : LedgerKey → Prop
  | .trustline _ asset => ∀ a, asset = .asset a → a.validate = .ok ()
  | .contractData _ key _ => ∀ v : ScVal, v.PartOf key → v.KeepsRules
  | _ => True

/-- A key is given no late error exactly if it keeps the late rule. -/
theorem lateVerdict_eq_ok_iff {k : LedgerKey} : k.lateVerdict = .ok () ↔ k.LateRule := by
  cases k with
  | trustline account asset =>
      exact (verdict_eq_ok_iff (TrustLineAsset.flat.steady_put asset)).trans
        TrustLineAsset.writable_iff
  | contractData contract key durability =>
      exact (verdict_eq_ok_iff (steady_put ScVal.regular key)).trans key.writable_iff
  | _ => exact iff_of_true rfl trivial

/-- **The part that is not judged before decides**, if a data entry's name obeys its rule. -/
theorem ends {k : LedgerKey} (h : (RevokeSponsorshipOp.ledgerEntry k).validate = .ok ()) :
    schema.wire.Ends k k.lateVerdict := by
  cases k with
  | account account => exact .behind rfl account.writable
  -- Here and for contract data something is judged only where it is written.
  | trustline account asset =>
      have hasset := ends_verdict (TrustLineAsset.flat.steady_put asset)
      exact .behind rfl (.after account.writable hasset)
  | offer seller id => exact .behind rfl (.after seller.writable (writable_i64 id))
  | data account name =>
      have hname : dataNameSchema.wire.Writable name := writable_text (size_le_of_checkDataName h)
      exact .behind rfl (Writable.guarded h (.both account.writable hname))
  | claimableBalance balance => exact .behind rfl balance.writable
  | liquidityPool pool => exact .behind rfl pool.writable
  | contractData contract key durability =>
      have hkey := ends_verdict (steady_put ScVal.regular key)
      have hdurability := ContractDataDurability.enumeration.writable durability
      exact .behind rfl (.after contract.writable (.before hdurability hkey))
  | contractCode hash => exact .behind rfl hash.writable
  | configSetting id => exact .behind rfl (ConfigSetting.Id.enumeration.writable id)
  | ttl keyHash => exact .behind rfl keyHash.writable

end LedgerKey

/-! ### Ending a sponsorship -/

namespace RevokeSponsorshipOp

/-- How writing ends for what `validate` passes: with the key of an entry. -/
def lateVerdict : RevokeSponsorshipOp → Except WireError Unit
  | .ledgerEntry key => key.lateVerdict
  | .signer _ _ => .ok ()

/-- What `validate` leaves out: the rule of the key of an entry. -/
def LateRule : RevokeSponsorshipOp → Prop
  | .ledgerEntry key => key.LateRule
  | .signer _ _ => True

/-- A revocation is given no late error exactly if its key keeps the late rule. -/
theorem lateVerdict_eq_ok_iff {op : RevokeSponsorshipOp} :
    op.lateVerdict = .ok () ↔ op.LateRule := by
  cases op with
  | ledgerEntry key => exact LedgerKey.lateVerdict_eq_ok_iff
  | signer account key => exact iff_of_true rfl trivial

/-- **Writing ends with what validation says, and then with what it leaves out.** -/
theorem ends (op : RevokeSponsorshipOp) : schema.wire.Ends op (do op.validate; op.lateVerdict) := by
  refine .guarded fun h => ?_
  cases op with
  | ledgerEntry key => exact .behind rfl (LedgerKey.ends h)
  | signer account key => exact .behind rfl (.after account.writable (SignerKey.writable h))

end RevokeSponsorshipOp

/-- **An operation that ends a sponsorship is judged twice.** What `validate` refuses is refused
before the first byte. What it passes is written if the rule that it leaves out is kept; if not, the
fault is that of the asset of the trust line or of the key of contract data, written alone. -/
theorem sponsorship_written (op : RevokeSponsorshipOp) :
    (∀ e, op.validate = .error e → ∀ w, RevokeSponsorshipOp.schema.wire.put op w = (.error e, w))
      ∧ ((∃ bytes, RevokeSponsorshipOp.schema.wire.encode op = .ok bytes) ↔
        op.validate = .ok () ∧ op.LateRule)
      ∧ (RevokeSponsorshipOp.schema.wire.encode op).map (fun _ => ())
        = (do op.validate; op.lateVerdict) := by
  have hverdict := (RevokeSponsorshipOp.ends op).verdict_eq
  refine ⟨fun e he w => put_guarded_of_error he w, ?_, hverdict⟩
  rw [exists_encode_iff_verdict, hverdict, seq_eq_ok_iff, RevokeSponsorshipOp.lateVerdict_eq_ok_iff]

/-- The entry of a data name without characters is refused before the first byte; an offer's entry
is written. -/
theorem sponsorship_written_emptyName :
    let account : AccountId := ⟨Vector.replicate 32 0⟩
    (∀ w, RevokeSponsorshipOp.schema.wire.put (.ledgerEntry (.data account "")) w
        = (.error (.validation "data_name" (.bytesOutside 0 1 64)), w))
      ∧ ∃ bytes, RevokeSponsorshipOp.schema.wire.encode (.ledgerEntry (.offer account 7))
        = .ok bytes := by
  intro account
  have hrefused : (RevokeSponsorshipOp.ledgerEntry (.data account "")).validate
      = .error (.validation "data_name" (.bytesOutside 0 1 64)) := by decide
  have hkept : (RevokeSponsorshipOp.ledgerEntry (.offer account 7)).LateRule := trivial
  exact ⟨(sponsorship_written (.ledgerEntry (.data account ""))).1 _ hrefused,
    (sponsorship_written (.ledgerEntry (.offer account 7))).2.1.2 ⟨rfl, hkept⟩⟩

/-- A trust line in a credit with a character that no code has passes validation, and has no wire
form. -/
theorem not_foreseen_trustLine :
    ¬∀ op : RevokeSponsorshipOp, op.validate = .ok () →
      ∃ bytes, RevokeSponsorshipOp.schema.wire.encode op = .ok bytes := by
  intro h
  let asset : Asset := .credit .four ⟨"US!", ⟨Vector.replicate 32 0⟩⟩
  let op : RevokeSponsorshipOp := .ledgerEntry (.trustline ⟨Vector.replicate 32 0⟩ (.asset asset))
  have hverdict := exists_encode_iff_verdict.1 (h op rfl)
  rw [(RevokeSponsorshipOp.ends op).verdict_eq, seq_eq_ok_iff,
    RevokeSponsorshipOp.lateVerdict_eq_ok_iff] at hverdict
  have hasset : asset.validate = .ok () := hverdict.2 asset rfl
  have hrefused : asset.validate ≠ .ok () := by decide
  exact hrefused hasset

/-! ### Accounts -/

namespace AccountEntry

/-- Who sponsors the account's signers, slot by slot. The slots stand in the second extension. -/
def sponsors (a : AccountEntry) : List (Option AccountId) :=
  match a.ext with
  | some ⟨_, some x⟩ => x.signerSponsoringIds
  | _ => []

end AccountEntry

/-- The number of slots for sponsors of signers has the bound of the signers. -/
def checkSponsors (sponsors : List (Option AccountId)) : Except WireError Unit :=
  if sponsors.length ≤ Limits.signers.toNat then .ok ()
  else .error (.validation "signer_sponsoring_ids"
    (.lengthAbove sponsors.length Limits.signers.toNat))

/-- The sponsors of an account's signers are judged where they are written, by their number. -/
theorem ends_sponsors {kind : String} (sponsors : List (Option AccountId)) :
    (AccountId.schema.wire.optional.array Limits.signers kind "signer_sponsoring_ids").Ends sponsors
      (checkSponsors sponsors) := by
  unfold checkSponsors
  split
  · rename_i hfit
    exact Writable.array hfit fun o _ => .optional fun account _ => account.writable
  · rename_i hlong
    exact ⟨[], Put.appends_array_of_lt (Nat.not_le.1 hlong)⟩

theorem Liabilities.writable (l : Liabilities) : Liabilities.schema.wire.Writable l :=
  .imap (.both l.buying.writable l.selling.writable)

theorem Thresholds.writable (t : Thresholds) : Thresholds.schema.wire.Writable t :=
  .imap (writable_fixed _)

theorem AccountEntryExtensionV3.writable (x : AccountEntryExtensionV3) :
    AccountEntryExtensionV3.schema.wire.Writable x :=
  .imap (.both writable_reserved (.both (writable_u32 _) (writable_u64 _)))

/-- The second extension ends as the check of its sponsors does. -/
theorem AccountEntryExtensionV2.ends (x : AccountEntryExtensionV2) :
    AccountEntryExtensionV2.schema.wire.Ends x (checkSponsors x.signerSponsoringIds) := by
  have hext : (AccountEntryExtensionV3.schema.wire.extension 3
      "AccountEntryExtensionV2.ext").Writable x.ext := .extension fun y _ => y.writable
  exact .imap <| .after (writable_u32 _) <| .after (writable_u32 _) <|
    .before hext (ends_sponsors x.signerSponsoringIds)

namespace AccountEntry

/-- The extensions of an account end with the verdict on the slots for sponsors. -/
theorem ends_ext (a : AccountEntry) :
    (AccountEntryExtensionV1.schema.wire.extension 1 "AccountEntry.ext").Ends a.ext
      (checkSponsors a.sponsors) := by
  unfold sponsors
  rcases a.ext with _ | ⟨liabilities, _ | x⟩
  · exact ⟨_, Put.appends_u32 0⟩
  · have hnone : (AccountEntryExtensionV2.schema.wire.extension 2
        "AccountEntryExtensionV1.ext").Writable none := .extension nofun
    exact .behind rfl (.imap (.after liabilities.writable hnone))
  · have hsome : (AccountEntryExtensionV2.schema.wire.extension 2
        "AccountEntryExtensionV1.ext").Ends (some x) _ := .behind rfl x.ends
    exact .behind rfl (.imap (.after liabilities.writable hsome))

/-- **The slots for sponsors decide** how a valid account ends, behind the bytes of its key at
least. -/
theorem appends_of_valid {a : AccountEntry} (hvalid : a.validate = .ok ()) :
    ∃ out ≠ [], (schema.wire.put a).Appends (checkSponsors a.sponsors) out := by
  obtain ⟨-, hrules⟩ := seq_eq_ok_iff.1 hvalid
  obtain ⟨hdomain, hrules⟩ := unless_eq_ok_iff.1 hrules
  obtain ⟨hcount, hsigners⟩ := unless_eq_ok_iff.1 hrules
  have hdest : AccountId.schema.wire.optional.Writable a.inflationDest :=
    .optional fun account _ => account.writable
  have hname : homeDomainSchema.wire.Writable a.homeDomain := writable_text (Nat.not_lt.1 hdomain)
  have hlist : (Signer.schema.wire.array Limits.signers "AccountEntry.signers"
      "signers").Writable a.signers :=
    .array (Nat.not_lt.1 hcount) fun s hs =>
      Signer.judged.writable (forM_eq_ok_iff.1 hsigners s hs)
  obtain ⟨q, hq⟩ := Ends.after (x := (a.balance, a.seqNum, a.numSubEntries, a.inflationDest,
      a.flags, a.homeDomain, a.thresholds, a.signers, a.ext)) a.balance.writable <|
    .after (writable_i64 _) <| .after (writable_u32 _) <| .after hdest <|
    .after (writable_u32 _) <| .after hname <| .after a.thresholds.writable <|
    .after hlist a.ends_ext
  obtain ⟨p, hp⟩ := a.accountId.writable_keyWire
  have hkey : AccountId.schema.wire.Writes a.accountId _ := (Put.appends_u32 0).bind hp
  -- The id alone is some bytes, so whatever fails later fails behind them.
  have hword : Bytes.word 0 ≠ [] := by decide
  have hput : schema.wire.put a = _ := put_guarded_of_ok hvalid
  rw [hput]
  exact ⟨_ ++ q, by simp [hword], hkey.bind hq⟩

end AccountEntry

/-- **An account is refused first, written, or broken off.** What `validate` refuses leaves no
trace. A valid account is written if it has no more slots for sponsors than signers may be. If it
has more, some of it is written behind whatever the writer holds, and then the slots are refused. -/
theorem account_written (a : AccountEntry) :
    (∀ e, a.validate = .error e → ∀ w, AccountEntry.schema.wire.put a w = (.error e, w))
      ∧ (a.validate = .ok () → a.sponsors.length ≤ 20 →
        ∃ out : Bytes, ∀ w, AccountEntry.schema.wire.put a w = (.ok (), ⟨w.content ++ out⟩))
      ∧ (a.validate = .ok () → 20 < a.sponsors.length →
        ∃ out : Bytes, out ≠ [] ∧ ∀ w, AccountEntry.schema.wire.put a w =
          (.error (.validation "signer_sponsoring_ids" (.lengthAbove a.sponsors.length 20)),
            ⟨w.content ++ out⟩)) := by
  refine ⟨fun e he w => put_guarded_of_error he w, fun hvalid hfit => ?_, fun hvalid hlong => ?_⟩
  · obtain ⟨out, -, hout⟩ := AccountEntry.appends_of_valid hvalid
    have hbound : a.sponsors.length ≤ Limits.signers.toNat := hfit
    rw [checkSponsors, if_pos hbound] at hout
    exact ⟨out, hout⟩
  · obtain ⟨out, hne, hout⟩ := AccountEntry.appends_of_valid hvalid
    have hbound : ¬a.sponsors.length ≤ Limits.signers.toNat := Nat.not_le.2 hlong
    rw [checkSponsors, if_neg hbound] at hout
    exact ⟨out, hne, hout⟩

/-- An account without signers is written with 20 empty slots for sponsors, and broken off with
21. -/
theorem account_written_slots :
    let account (slots : Nat) : AccountEntry :=
      { accountId := ⟨Vector.replicate 32 0⟩, balance := ⟨0⟩, seqNum := 1, numSubEntries := 0,
        inflationDest := none, flags := 0, homeDomain := "", thresholds := ⟨1, 0, 0, 0⟩,
        signers := [],
        ext := some ⟨⟨⟨0⟩, ⟨0⟩⟩, some ⟨0, 0, List.replicate slots none, none⟩⟩ }
    (∃ out : Bytes, ∀ w, AccountEntry.schema.wire.put (account 20) w
        = (.ok (), ⟨w.content ++ out⟩))
      ∧ ∃ out : Bytes, out ≠ [] ∧ ∀ w, AccountEntry.schema.wire.put (account 21) w
        = (.error (.validation "signer_sponsoring_ids" (.lengthAbove 21 20)),
          ⟨w.content ++ out⟩) := by
  intro account
  have hvalid (slots : Nat) : (account slots).validate = .ok () := rfl
  exact ⟨(account_written (account 20)).2.1 (hvalid 20) (by decide),
    (account_written (account 21)).2.2 (hvalid 21) (by decide)⟩

/-- With 21 empty slots for sponsors, an account passes validation and has no wire form. -/
theorem not_foreseen_sponsors :
    ¬∀ a : AccountEntry, a.validate = .ok () →
      ∃ bytes, AccountEntry.schema.wire.encode a = .ok bytes := by
  intro h
  let a : AccountEntry :=
    { accountId := ⟨Vector.replicate 32 0⟩, balance := ⟨0⟩, seqNum := 1, numSubEntries := 0,
      inflationDest := none, flags := 0, homeDomain := "", thresholds := ⟨1, 0, 0, 0⟩,
      signers := [],
      ext := some ⟨⟨⟨0⟩, ⟨0⟩⟩, some ⟨0, 0, List.replicate 21 none, none⟩⟩ }
  have hvalid : a.validate = .ok () := rfl
  obtain ⟨out, -, hout⟩ := AccountEntry.appends_of_valid hvalid
  have hends : AccountEntry.schema.wire.Ends a (checkSponsors a.sponsors) := ⟨out, hout⟩
  have hverdict := exists_encode_iff_verdict.1 (h a hvalid)
  have hrefused : checkSponsors a.sponsors ≠ .ok () := by decide
  exact hrefused (hends.verdict_eq.symm.trans hverdict)

end LedgerWire
