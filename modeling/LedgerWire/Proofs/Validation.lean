/-
# Rules complain of broken rules only

Every rule of the format, of a single field or of a whole record, passes or reports a broken rule;
no other fault comes out of a validation. Records are judged field by field, so each statement is
put together from those of the rules that it names.

* `Judges.seq`, `Judges.unless`, `Judges.forM` — rules one after the other, and rules of lists.
* `seq_eq_ok_iff`, `unless_eq_ok_iff`, `forM_eq_ok_iff` — when they all pass.
* `judges_…` — the rules of single fields, in the order of the modules that hold them.
-/

import LedgerWire.Proofs.Wire.Writing
import LedgerWire.Entry.Basic
import LedgerWire.Operation.Basic

namespace LedgerWire

/-! ### Rules put together -/

variable {x y : Except WireError Unit}

/-- Two checks in a row judge if both do. -/
theorem Judges.seq (hx : Judges x) (hy : Judges y) : Judges (do x; y) := by
  intro e h
  cases x with
  | ok u => exact hy e h
  | error _ =>
      cases h
      exact hx _ rfl

/-- A check that refuses on a condition judges if the rest does. -/
theorem Judges.unless {c : Prop} [Decidable c] {field : String} {why : Violation}
    (hy : Judges y) : Judges (if c then .error (.validation field why) else y) := by
  split
  · exact judges_error field why
  · exact hy

/-- A check of one condition judges. -/
theorem Judges.provided {c : Prop} [Decidable c] {field : String} {why : Violation} :
    Judges (if c then .ok () else .error (.validation field why)) := by
  split
  · exact judges_ok
  · exact judges_error field why

/-- A check of every item judges if the check of one does. -/
theorem Judges.forM {α : Type} {check : α → Except WireError Unit} (h : ∀ a, Judges (check a))
    (items : List α) : Judges (items.forM check) := by
  induction items with
  | nil => exact judges_ok
  | cons a rest ih => exact (h a).seq ih

/-- A check of what may be there judges if the check of it does. -/
theorem judges_whenPresent {α : Type} {check : α → Except WireError Unit}
    (h : ∀ a, Judges (check a)) (o : Option α) : Judges (whenPresent check o) := by
  cases o with
  | none => exact judges_ok
  | some a => exact h a

/-! ### Rules that pass -/

section Passing

variable {α : Type} {check : α → Except WireError Unit} {c : Prop} [Decidable c] {e : WireError}

/-- Two checks in a row pass what passes both. -/
theorem seq_eq_ok_iff : (do x; y) = .ok () ↔ x = .ok () ∧ y = .ok () := by
  cases x with
  | ok u =>
      show y = .ok () ↔ _
      simp
  | error e => exact iff_of_false nofun nofun

/-- A refusal on a condition passes what does not meet it and passes the rest. -/
theorem unless_eq_ok_iff : (if c then .error e else y) = .ok () ↔ ¬c ∧ y = .ok () := by
  by_cases hc : c
  · rw [if_pos hc]
    exact iff_of_false nofun fun h => h.1 hc
  · rw [if_neg hc]
    exact (and_iff_right hc).symm

/-- A check of one condition passes what meets it. -/
theorem provided_eq_ok_iff :
    (if c then .ok () else .error e : Except WireError Unit) = .ok () ↔ c := by
  by_cases hc : c
  · rw [if_pos hc]
    exact iff_of_true rfl hc
  · rw [if_neg hc]
    exact iff_of_false nofun hc

/-- A check of every item passes the lists whose items all pass. -/
theorem forM_eq_ok_iff {items : List α} :
    items.forM check = .ok () ↔ ∀ a ∈ items, check a = .ok () := by
  induction items with
  | nil => exact iff_of_true rfl nofun
  | cons a rest ih => rw [List.forall_mem_cons, ← ih]; exact seq_eq_ok_iff

/-- A check of what may be there passes nothing, and whatever passes. -/
theorem whenPresent_eq_ok_iff {o : Option α} :
    whenPresent check o = .ok () ↔ ∀ a ∈ o, check a = .ok () := by
  cases o with
  | none => exact iff_of_true rfl nofun
  | some a => simp [whenPresent]

end Passing

/-! ### Single fields -/

/-- The check of an asset's code fails by naming the code. -/
theorem judges_checkCode (width : CodeWidth) (code : String) : Judges (checkCode width code) := by
  unfold checkCode
  split
  · exact judges_error _ _
  · exact judges_ok

theorem judges_checkSymbol (symbol : String) : Judges (checkSymbol symbol) := by
  unfold checkSymbol
  split
  · exact judges_error _ _
  · exact judges_ok

theorem judges_requirePositive (field : String) (a : Amount) :
    Judges (a.requirePositive field) := .provided

theorem judges_requireNonNegative (field : String) (a : Amount) :
    Judges (a.requireNonNegative field) := .provided

theorem judges_price (p : Price) : Judges p.validate := .unless (.unless judges_ok)

theorem judges_asset (a : Asset) : Judges a.validate := by
  cases a with
  | native => exact judges_ok
  | credit width c => exact judges_checkCode width c.code

theorem judges_checkDataName (name : String) : Judges (checkDataName name) := .unless judges_ok

theorem judges_checkWeight (field : String) (weight : UInt32) :
    Judges (checkWeight field weight) := .provided

theorem judges_checkFlags (mask : UInt32) (field : String) (flags : UInt32) :
    Judges (checkFlags mask field flags) := .provided

theorem judges_checkNotNegative (field : String) (n : Int64) :
    Judges (checkNotNegative field n) := .unless judges_ok

theorem judges_requireCredit (field : String) (asset : Asset) :
    Judges (requireCredit field asset) := by
  cases asset with
  | native => exact judges_error _ _
  | credit width c => exact judges_asset (.credit width c)

theorem judges_checkPath (path : List Asset) : Judges (checkPath path) :=
  .unless (.forM judges_asset path)

theorem judges_checkClaimants (claimants : List Claimant) : Judges (checkClaimants claimants) :=
  .unless judges_ok

theorem judges_checkHomeDomain (homeDomain : String) :
    Judges (SetOptionsOp.checkHomeDomain homeDomain) := .unless judges_ok

theorem judges_signerKey (key : SignerKey) : Judges key.validate := by
  cases key with
  | signedPayload account payload => exact .provided
  | _ => exact judges_ok

theorem judges_signer (s : Signer) : Judges s.validate :=
  (judges_signerKey s.key).seq (judges_checkWeight _ _)

theorem judges_scError (e : ScError) : Judges e.validate := by
  unfold ScError.validate
  split
  · exact judges_error _ _
  · exact judges_ok

theorem judges_pool (p : LiquidityPoolParameters) : Judges p.validate := by
  refine (judges_asset _).seq ((judges_asset _).seq ?_)
  exact .unless (.unless judges_ok)

theorem judges_changeTrustAsset (line : ChangeTrustAsset) : Judges line.validate := by
  cases line using LineAsset.assetOrShare with
  | asset a =>
      rw [ChangeTrustAsset.validate_asset]
      exact judges_asset a
  | poolShare p => exact judges_pool p

/-! ### Entries -/

theorem judges_account (a : AccountEntry) : Judges a.validate := by
  refine (judges_requireNonNegative _ _).seq ?_
  exact .unless (.unless (.forM judges_signer _))

theorem judges_data (d : DataEntry) : Judges d.validate :=
  (judges_checkDataName _).seq (.unless judges_ok)

theorem judges_claimableBalance (b : ClaimableBalanceEntry) : Judges b.validate :=
  (judges_asset _).seq ((judges_requirePositive _ _).seq (judges_checkClaimants _))

/-! ### Operations -/

theorem judges_createAccount (op : CreateAccountOp) : Judges op.validate :=
  judges_requireNonNegative _ _

theorem judges_manageData (op : ManageDataOp) : Judges op.validate :=
  (judges_checkDataName _).seq (judges_whenPresent (fun _ => .unless judges_ok) _)

theorem judges_bumpSequence (op : BumpSequenceOp) : Judges op.validate :=
  judges_checkNotNegative _ _

theorem judges_setOptions (op : SetOptionsOp) : Judges op.validate := by
  refine (judges_whenPresent (judges_checkFlags _ _) _).seq ?_
  refine (judges_whenPresent (judges_checkFlags _ _) _).seq ?_
  refine (judges_whenPresent (judges_checkWeight _) _).seq ?_
  refine (judges_whenPresent (judges_checkWeight _) _).seq ?_
  refine (judges_whenPresent (judges_checkWeight _) _).seq ?_
  refine (judges_whenPresent (judges_checkWeight _) _).seq ?_
  exact (judges_whenPresent judges_checkHomeDomain _).seq (judges_whenPresent judges_signer _)

theorem judges_payment (op : PaymentOp) : Judges op.validate :=
  (judges_asset _).seq (judges_requirePositive _ _)

theorem judges_pathPaymentStrictReceive (op : PathPaymentStrictReceiveOp) :
    Judges op.validate := by
  refine (judges_asset _).seq ((judges_asset _).seq ?_)
  refine (judges_requirePositive _ _).seq ((judges_requirePositive _ _).seq ?_)
  exact judges_checkPath _

theorem judges_pathPaymentStrictSend (op : PathPaymentStrictSendOp) : Judges op.validate := by
  refine (judges_asset _).seq ((judges_asset _).seq ?_)
  refine (judges_requirePositive _ _).seq ((judges_requirePositive _ _).seq ?_)
  exact judges_checkPath _

theorem judges_manageSellOffer (op : ManageSellOfferOp) : Judges op.validate := by
  refine (judges_asset _).seq ((judges_asset _).seq ?_)
  refine (judges_requireNonNegative _ _).seq ((judges_price _).seq ?_)
  exact judges_checkNotNegative _ _

theorem judges_manageBuyOffer (op : ManageBuyOfferOp) : Judges op.validate := by
  refine (judges_asset _).seq ((judges_asset _).seq ?_)
  refine (judges_requireNonNegative _ _).seq ((judges_price _).seq ?_)
  exact judges_checkNotNegative _ _

theorem judges_createPassiveSellOffer (op : CreatePassiveSellOfferOp) : Judges op.validate := by
  refine (judges_asset _).seq ((judges_asset _).seq ?_)
  exact (judges_requirePositive _ _).seq (judges_price _)

theorem judges_changeTrust (op : ChangeTrustOp) : Judges op.validate :=
  .unless ((judges_changeTrustAsset _).seq (judges_requireNonNegative _ _))

theorem judges_setTrustLineFlags (op : SetTrustLineFlagsOp) : Judges op.validate := by
  refine (judges_requireCredit _ _).seq ((judges_checkFlags _ _ _).seq ?_)
  exact (judges_checkFlags _ _ _).seq (.unless judges_ok)

theorem judges_clawback (op : ClawbackOp) : Judges op.validate :=
  (judges_requireCredit _ _).seq (judges_requirePositive _ _)

theorem judges_createClaimableBalance (op : CreateClaimableBalanceOp) : Judges op.validate :=
  (judges_asset _).seq ((judges_requirePositive _ _).seq (judges_checkClaimants _))

theorem judges_liquidityPoolDeposit (op : LiquidityPoolDepositOp) : Judges op.validate := by
  refine (judges_requirePositive _ _).seq ((judges_requirePositive _ _).seq ?_)
  exact (judges_price _).seq ((judges_price _).seq (.unless judges_ok))

theorem judges_liquidityPoolWithdraw (op : LiquidityPoolWithdrawOp) : Judges op.validate := by
  refine (judges_requirePositive _ _).seq ((judges_requireNonNegative _ _).seq ?_)
  exact judges_requireNonNegative _ _

theorem judges_extendFootprintTtl (op : ExtendFootprintTtlOp) : Judges op.validate :=
  .unless judges_ok

theorem judges_revokeSponsorship (op : RevokeSponsorshipOp) : Judges op.validate := by
  unfold RevokeSponsorshipOp.validate
  split
  · exact judges_checkDataName _
  · exact judges_ok
  · exact judges_signerKey _

end LedgerWire
