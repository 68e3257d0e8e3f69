/-
# Types whose rules settle what is written

Names, amounts, prices and conditions are written whatever their values. Assets, signers, entries
and operations have rules, and `validate` judges them all before the first byte: also those that
the codecs of the parts have, on codes, texts, byte strings and numbers of items. Each proof takes
the verdict apart into the rules that the parts need, and repeats the schema of its type.

* `Codec.Flat.read_of_writable` — what holds nothing nested is read at any depth, once written.
* `Asset.writable`, `SignerKey.writable`, `ChangeTrustAsset.writable` — parts that have rules.
* `LiquidityPoolParameters.judged`, `Signer.judged`, … — the types that judge their values first.
-/

import LedgerWire.Proofs.Types.Operations
import LedgerWire.Proofs.Wire.Whole
import LedgerWire.Proofs.Wire.Writable

namespace LedgerWire

open Codec

/-- **What is written is read as it was**, whatever the limit, if values hold nothing nested. -/
theorem Codec.Flat.read_of_writable {α : Type} {c : Codec α} {a : α} (hc : c.Flat)
    (h : c.Writable a) :
    ∃ bytes, c.encode a = .ok bytes ∧ ∀ limit, c.decode bytes limit = .ok a := by
  obtain ⟨bytes, hwrites⟩ := h
  refine ⟨bytes, hwrites.encode_eq, fun limit => ?_⟩
  exact (hc limit).decode_of_encode (Nat.le_refl _) (Nat.zero_le _) hwrites.encode_eq

/-! ### Values without rules -/

theorem Hash.writable (h : Hash) : Hash.schema.wire.Writable h := .imap (writable_fixed _)

theorem Amount.writable (a : Amount) : Amount.schema.wire.Writable a := .imap (writable_i64 _)

theorem Price.writable (p : Price) : Price.schema.wire.Writable p :=
  .imap (.both (writable_i32 _) (writable_i32 _))

theorem AccountId.writable_keyWire (a : AccountId) : AccountId.keyWire.Writable a :=
  .imap (writable_fixed _)

theorem AccountId.writable (a : AccountId) : AccountId.schema.wire.Writable a :=
  .single a.writable_keyWire

theorem MuxedAccount.writable (m : MuxedAccount) : MuxedAccount.schema.wire.Writable m := by
  cases m with
  | ed25519 account => exact .behind rfl account.writable_keyWire
  | muxed id account =>
      have hpair : (Codec.u64.both AccountId.keyWire).Writable (id, account) :=
        .both (writable_u64 id) account.writable_keyWire
      exact .behind rfl hpair

theorem PoolId.writable (p : PoolId) : PoolId.schema.wire.Writable p := .imap p.hash.writable

theorem ClaimableBalanceId.writable (b : ClaimableBalanceId) :
    ClaimableBalanceId.schema.wire.Writable b :=
  .single (.imap b.hash.writable)

theorem writable_reserved : Schema.reserved.wire.Writable () := .single writable_unit

theorem ScAddress.writable (a : ScAddress) : ScAddress.schema.wire.Writable a := by
  cases a with
  | account account => exact .behind rfl account.writable
  | contract contract =>
      have hcontract : ContractId.schema.wire.Writable contract := .imap contract.hash.writable
      exact .behind rfl hcontract

/-- Every case of an enumeration has a number to be written. -/
theorem Enumeration.writable {α : Type} (e : Enumeration α) (a : α) : e.wire.Writable a :=
  ⟨_, Put.appends_u32 _⟩

/-- A condition is written level by level; writing has no limit of its own. -/
theorem ClaimPredicate.writable (p : ClaimPredicate) : ClaimPredicate.schema.wire.Writable p := by
  have hlevel (q : ClaimPredicate) :
      schema.wire.put q = (layout schema).wire.put q := Schema.recursive_put local_layout q
  have hpair {left right : ClaimPredicate} (hleft : schema.wire.Writable left)
      (hright : schema.wire.Writable right) : (pair schema).wire.Writable (left, right) :=
    .imap (.both (.convert (writable_u32 2)) (.both hleft hright))
  induction p with
  | unconditional => exact .behind (hlevel _) writable_unit
  | and left right hleft hright => exact .behind (hlevel _) (hpair hleft hright)
  | or left right hleft hright => exact .behind (hlevel _) (hpair hleft hright)
  | not inner hinner =>
      have hchild : (child schema).wire.Writable inner :=
        .convert <| .optional fun p hp => by
          cases hp
          exact hinner
      exact .behind (hlevel _) hchild
  | beforeAbsoluteTime seconds => exact .behind (hlevel _) (writable_i64 seconds)
  | beforeRelativeTime seconds => exact .behind (hlevel _) (writable_i64 seconds)

theorem Claimant.writable (c : Claimant) : Claimant.schema.wire.Writable c :=
  .single <| .imap <| .both c.destination.writable c.predicate.writable

/-! ### Assets and pools -/

namespace Asset

theorem writable_credit {width : CodeWidth} {c : Credit} (h : c.validate width = .ok ()) :
    (Credit.schema width).wire.Writable c :=
  .guarded h <| .imap <| .both (.convert (writable_fixed _)) c.issuer.writable

theorem writable {a : Asset} (h : a.validate = .ok ()) : Asset.schema.wire.Writable a := by
  cases a with
  | native => exact .behind rfl writable_unit
  | credit width c =>
      cases width with
      | four => exact .behind rfl (writable_credit h)
      | twelve => exact .behind rfl (writable_credit h)

end Asset

/-- An asset that has to be a credit is checked as an asset first. -/
theorem requireCredit_eq_ok {field : String} {asset : Asset}
    (h : requireCredit field asset = .ok ()) : asset.validate = .ok () := by
  cases asset with
  | native => cases h
  | credit width c => exact h

theorem LiquidityPoolParameters.judged :
    JudgedFirst LiquidityPoolParameters.validate LiquidityPoolParameters.schema.wire := by
  refine .guarded fun p h => ?_
  obtain ⟨ha, hrest⟩ := seq_eq_ok_iff.1 h
  obtain ⟨hb, -⟩ := seq_eq_ok_iff.1 hrest
  exact .single <| .imap <| .both (Asset.writable ha) <| .both (Asset.writable hb) (writable_i32 _)

theorem ChangeTrustAsset.writable {line : ChangeTrustAsset} (h : line.validate = .ok ()) :
    ChangeTrustAsset.schema.wire.Writable line := by
  cases line using LineAsset.assetOrShare with
  | asset a =>
      have hput : ChangeTrustAsset.schema.wire.put (.asset a) = Asset.schema.wire.put a := by
        rcases a with _ | ⟨_ | _, c⟩ <;> rfl
      rw [validate_asset] at h
      exact .of_put_eq hput (Asset.writable h)
  | poolShare p => exact .behind rfl (LiquidityPoolParameters.judged.writable h)

/-! ### Signers -/

theorem SignerKey.writable {k : SignerKey} (h : k.validate = .ok ()) :
    SignerKey.schema.wire.Writable k := by
  cases k with
  | ed25519 account => exact .behind rfl account.writable_keyWire
  | preAuthTx hash => exact .behind rfl hash.writable
  | hashX hash => exact .behind rfl hash.writable
  | signedPayload account payload =>
      have hlen : payload.length ≤ Limits.signedPayload.toNat := provided_eq_ok_iff.1 h
      have hpair : (AccountId.keyWire.both (.bytes Limits.signedPayload "signed_payload"
          "signed_payload")).Writable (account, payload) :=
        .both account.writable_keyWire (writable_bytes hlen)
      exact .behind rfl hpair

theorem Signer.judged : JudgedFirst Signer.validate Signer.schema.wire := by
  refine .guarded fun s h => ?_
  obtain ⟨hkey, -⟩ := seq_eq_ok_iff.1 h
  exact .imap (.both (SignerKey.writable hkey) (writable_u32 _))

/-! ### Entries -/

/-- A name that passes is within the bound that its writing has. -/
theorem size_le_of_checkDataName {name : String} (h : checkDataName name = .ok ()) :
    name.utf8ByteSize ≤ Limits.dataName.toNat := by
  obtain ⟨hbounds, -⟩ := unless_eq_ok_iff.1 h
  exact Nat.not_lt.1 fun hlong => hbounds (.inr hlong)

/-- Claimants that pass are within the bound that their writing has. -/
theorem length_le_of_checkClaimants {claimants : List Claimant}
    (h : checkClaimants claimants = .ok ()) : claimants.length ≤ Limits.claimants.toNat := by
  obtain ⟨hbounds, -⟩ := unless_eq_ok_iff.1 h
  exact Nat.not_lt.1 fun hlong => hbounds (.inr hlong)

theorem DataEntry.judged : JudgedFirst DataEntry.validate DataEntry.schema.wire := by
  refine .guarded fun d h => ?_
  obtain ⟨hname, hrest⟩ := seq_eq_ok_iff.1 h
  obtain ⟨hvalue, -⟩ := unless_eq_ok_iff.1 hrest
  exact .imap <| .both d.accountId.writable <|
    .both (writable_text (size_le_of_checkDataName hname)) <|
    .both (writable_bytes (Nat.not_lt.1 hvalue)) writable_reserved

theorem ClaimableBalanceEntry.judged :
    JudgedFirst ClaimableBalanceEntry.validate ClaimableBalanceEntry.schema.wire := by
  refine .guarded fun b h => ?_
  obtain ⟨hasset, hrest⟩ := seq_eq_ok_iff.1 h
  obtain ⟨-, hclaimants⟩ := seq_eq_ok_iff.1 hrest
  have hext (x : ClaimableBalanceEntryExtensionV1) :
      ClaimableBalanceEntryExtensionV1.schema.wire.Writable x :=
    .imap (.both writable_reserved (writable_u32 _))
  exact .imap <| .both b.balanceId.writable <|
    .both (.array (length_le_of_checkClaimants hclaimants) fun c _ => c.writable) <|
    .both (Asset.writable hasset) <| .both b.amount.writable <| .extension fun x _ => hext x

/-! ### Operations -/

theorem CreateAccountOp.judged : JudgedFirst CreateAccountOp.validate CreateAccountOp.schema.wire :=
  .guarded fun op _ => .imap (.both op.destination.writable op.startingBalance.writable)

theorem BumpSequenceOp.judged : JudgedFirst BumpSequenceOp.validate BumpSequenceOp.schema.wire :=
  .guarded fun op _ => .imap (writable_i64 op.bumpTo)

theorem ManageDataOp.judged : JudgedFirst ManageDataOp.validate ManageDataOp.schema.wire := by
  refine .guarded fun op h => ?_
  obtain ⟨hname, hrest⟩ := seq_eq_ok_iff.1 h
  have hvalue := whenPresent_eq_ok_iff.1 hrest
  refine .imap <| .both (writable_text (size_le_of_checkDataName hname)) <|
    .optional fun value hpresent => ?_
  obtain ⟨hlen, -⟩ := unless_eq_ok_iff.1 (hvalue value hpresent)
  exact writable_bytes (Nat.not_lt.1 hlen)

theorem SetOptionsOp.judged : JudgedFirst SetOptionsOp.validate SetOptionsOp.schema.wire := by
  refine .guarded fun op h => ?_
  -- Flags and weights are words, whatever their rules say.
  obtain ⟨-, h⟩ := seq_eq_ok_iff.1 h
  obtain ⟨-, h⟩ := seq_eq_ok_iff.1 h
  obtain ⟨-, h⟩ := seq_eq_ok_iff.1 h
  obtain ⟨-, h⟩ := seq_eq_ok_iff.1 h
  obtain ⟨-, h⟩ := seq_eq_ok_iff.1 h
  obtain ⟨-, h⟩ := seq_eq_ok_iff.1 h
  obtain ⟨hdomain, hsigner⟩ := seq_eq_ok_iff.1 h
  have hdomain := whenPresent_eq_ok_iff.1 hdomain
  have hsigner := whenPresent_eq_ok_iff.1 hsigner
  have hword (o : Option UInt32) : Codec.u32.optional.Writable o :=
    .optional fun n _ => writable_u32 n
  refine .imap <| .both (.optional fun a _ => a.writable) <| .both (hword _) <|
    .both (hword _) <| .both (hword _) <| .both (hword _) <| .both (hword _) <| .both (hword _) <|
    .both (.optional fun domain hpresent => ?_) <|
    .optional fun signer hpresent => Signer.judged.writable (hsigner signer hpresent)
  obtain ⟨hlen, -⟩ := unless_eq_ok_iff.1 (hdomain domain hpresent)
  exact writable_text (Nat.not_lt.1 hlen)

theorem PaymentOp.judged : JudgedFirst PaymentOp.validate PaymentOp.schema.wire := by
  refine .guarded fun op h => ?_
  obtain ⟨hasset, -⟩ := seq_eq_ok_iff.1 h
  exact .imap <| .both op.destination.writable <| .both (Asset.writable hasset) op.amount.writable

/-- A path that passes is written, each of its assets being valid. -/
theorem writable_path {path : List Asset} {kind field : String} (h : checkPath path = .ok ()) :
    (Asset.schema.wire.array Limits.path kind field).Writable path := by
  obtain ⟨hlen, hassets⟩ := unless_eq_ok_iff.1 h
  exact .array (Nat.not_lt.1 hlen) fun a ha => Asset.writable (forM_eq_ok_iff.1 hassets a ha)

theorem PathPaymentStrictReceiveOp.judged :
    JudgedFirst PathPaymentStrictReceiveOp.validate PathPaymentStrictReceiveOp.schema.wire := by
  refine .guarded fun op h => ?_
  obtain ⟨hsend, h⟩ := seq_eq_ok_iff.1 h
  obtain ⟨hdest, h⟩ := seq_eq_ok_iff.1 h
  obtain ⟨-, h⟩ := seq_eq_ok_iff.1 h
  obtain ⟨-, hpath⟩ := seq_eq_ok_iff.1 h
  exact .imap <| .both (Asset.writable hsend) <| .both op.sendMax.writable <|
    .both op.destination.writable <| .both (Asset.writable hdest) <|
    .both op.destAmount.writable (writable_path hpath)

theorem PathPaymentStrictSendOp.judged :
    JudgedFirst PathPaymentStrictSendOp.validate PathPaymentStrictSendOp.schema.wire := by
  refine .guarded fun op h => ?_
  obtain ⟨hsend, h⟩ := seq_eq_ok_iff.1 h
  obtain ⟨hdest, h⟩ := seq_eq_ok_iff.1 h
  obtain ⟨-, h⟩ := seq_eq_ok_iff.1 h
  obtain ⟨-, hpath⟩ := seq_eq_ok_iff.1 h
  exact .imap <| .both (Asset.writable hsend) <| .both op.sendAmount.writable <|
    .both op.destination.writable <| .both (Asset.writable hdest) <|
    .both op.destMin.writable (writable_path hpath)

theorem ManageSellOfferOp.judged :
    JudgedFirst ManageSellOfferOp.validate ManageSellOfferOp.schema.wire := by
  refine .guarded fun op h => ?_
  obtain ⟨hselling, h⟩ := seq_eq_ok_iff.1 h
  obtain ⟨hbuying, -⟩ := seq_eq_ok_iff.1 h
  exact .imap <| .both (Asset.writable hselling) <| .both (Asset.writable hbuying) <|
    .both op.amount.writable <| .both op.price.writable (writable_i64 _)

theorem ManageBuyOfferOp.judged :
    JudgedFirst ManageBuyOfferOp.validate ManageBuyOfferOp.schema.wire := by
  refine .guarded fun op h => ?_
  obtain ⟨hselling, h⟩ := seq_eq_ok_iff.1 h
  obtain ⟨hbuying, -⟩ := seq_eq_ok_iff.1 h
  exact .imap <| .both (Asset.writable hselling) <| .both (Asset.writable hbuying) <|
    .both op.buyAmount.writable <| .both op.price.writable (writable_i64 _)

theorem CreatePassiveSellOfferOp.judged :
    JudgedFirst CreatePassiveSellOfferOp.validate CreatePassiveSellOfferOp.schema.wire := by
  refine .guarded fun op h => ?_
  obtain ⟨hselling, h⟩ := seq_eq_ok_iff.1 h
  obtain ⟨hbuying, -⟩ := seq_eq_ok_iff.1 h
  exact .imap <| .both (Asset.writable hselling) <| .both (Asset.writable hbuying) <|
    .both op.amount.writable op.price.writable

theorem ChangeTrustOp.judged : JudgedFirst ChangeTrustOp.validate ChangeTrustOp.schema.wire := by
  refine .guarded fun op h => ?_
  obtain ⟨-, h⟩ := unless_eq_ok_iff.1 h
  obtain ⟨hline, -⟩ := seq_eq_ok_iff.1 h
  exact .imap (.both (ChangeTrustAsset.writable hline) op.limit.writable)

theorem SetTrustLineFlagsOp.judged :
    JudgedFirst SetTrustLineFlagsOp.validate SetTrustLineFlagsOp.schema.wire := by
  refine .guarded fun op h => ?_
  obtain ⟨hcredit, -⟩ := seq_eq_ok_iff.1 h
  have hasset := Asset.writable (requireCredit_eq_ok hcredit)
  exact .imap <| .both op.trustor.writable <| .both hasset <|
    .both (writable_u32 _) (writable_u32 _)

theorem ClawbackOp.judged : JudgedFirst ClawbackOp.validate ClawbackOp.schema.wire := by
  refine .guarded fun op h => ?_
  obtain ⟨hcredit, -⟩ := seq_eq_ok_iff.1 h
  exact .imap <| .both (Asset.writable (requireCredit_eq_ok hcredit)) <|
    .both op.source.writable op.amount.writable

theorem CreateClaimableBalanceOp.judged :
    JudgedFirst CreateClaimableBalanceOp.validate CreateClaimableBalanceOp.schema.wire := by
  refine .guarded fun op h => ?_
  obtain ⟨hasset, h⟩ := seq_eq_ok_iff.1 h
  obtain ⟨-, hclaimants⟩ := seq_eq_ok_iff.1 h
  exact .imap <| .both (Asset.writable hasset) <| .both op.amount.writable <|
    .array (length_le_of_checkClaimants hclaimants) fun c _ => c.writable

theorem LiquidityPoolDepositOp.judged :
    JudgedFirst LiquidityPoolDepositOp.validate LiquidityPoolDepositOp.schema.wire :=
  .guarded fun op _ => .imap <| .both op.poolId.writable <| .both op.maxAmountA.writable <|
    .both op.maxAmountB.writable <| .both op.minPrice.writable op.maxPrice.writable

theorem LiquidityPoolWithdrawOp.judged :
    JudgedFirst LiquidityPoolWithdrawOp.validate LiquidityPoolWithdrawOp.schema.wire :=
  .guarded fun op _ => .imap <| .both op.poolId.writable <| .both op.amount.writable <|
    .both op.minAmountA.writable op.minAmountB.writable

theorem ExtendFootprintTtlOp.judged :
    JudgedFirst ExtendFootprintTtlOp.validate ExtendFootprintTtlOp.schema.wire :=
  .guarded fun op _ => .imap (.both writable_reserved (writable_u32 op.extendTo))

end LedgerWire
