/-
# What is valid is written, and nothing else

Operations and some entries are validated by their constructors, and again before they are written.
The second time settles it: a value that is refused leaves no byte behind, and no rule is left that
could stop a value half-way.

* `judgedTypes` — the types of which this holds, with their rules.
* `valid_iff_written` — their values are written if they are valid, and refused first if not.
-/

import LedgerWire.DataType
import LedgerWire.Proofs.Types.Writable

namespace LedgerWire

/-- A type with the rules for its values. -/
structure JudgedType : Type 1 where
  type : DataType
  validate : type.Value → Except WireError Unit

def JudgedType.of {α : Type} [DecidableEq α] (name : String) (s : Schema α)
    (validate : α → Except WireError Unit) : JudgedType := ⟨⟨name, α, s⟩, validate⟩

/-- The types that judge their values before they write them. -/
def judgedTypes : List JudgedType :=
  [ .of "CreateAccountOp" CreateAccountOp.schema CreateAccountOp.validate,
    .of "BumpSequenceOp" BumpSequenceOp.schema BumpSequenceOp.validate,
    .of "SetOptionsOp" SetOptionsOp.schema SetOptionsOp.validate,
    .of "ManageDataOp" ManageDataOp.schema ManageDataOp.validate,
    .of "PaymentOp" PaymentOp.schema PaymentOp.validate,
    .of "PathPaymentStrictReceiveOp" PathPaymentStrictReceiveOp.schema
      PathPaymentStrictReceiveOp.validate,
    .of "PathPaymentStrictSendOp" PathPaymentStrictSendOp.schema PathPaymentStrictSendOp.validate,
    .of "ManageSellOfferOp" ManageSellOfferOp.schema ManageSellOfferOp.validate,
    .of "ManageBuyOfferOp" ManageBuyOfferOp.schema ManageBuyOfferOp.validate,
    .of "CreatePassiveSellOfferOp" CreatePassiveSellOfferOp.schema
      CreatePassiveSellOfferOp.validate,
    .of "ChangeTrustOp" ChangeTrustOp.schema ChangeTrustOp.validate,
    .of "SetTrustLineFlagsOp" SetTrustLineFlagsOp.schema SetTrustLineFlagsOp.validate,
    .of "ClawbackOp" ClawbackOp.schema ClawbackOp.validate,
    .of "CreateClaimableBalanceOp" CreateClaimableBalanceOp.schema
      CreateClaimableBalanceOp.validate,
    .of "LiquidityPoolDepositOp" LiquidityPoolDepositOp.schema LiquidityPoolDepositOp.validate,
    .of "LiquidityPoolWithdrawOp" LiquidityPoolWithdrawOp.schema LiquidityPoolWithdrawOp.validate,
    .of "ExtendFootprintTtlOp" ExtendFootprintTtlOp.schema ExtendFootprintTtlOp.validate,
    .of "Signer" Signer.schema Signer.validate,
    .of "LiquidityPoolParameters" LiquidityPoolParameters.schema LiquidityPoolParameters.validate,
    .of "DataEntry" DataEntry.schema DataEntry.validate,
    .of "ClaimableBalanceEntry" ClaimableBalanceEntry.schema ClaimableBalanceEntry.validate ]

/-- **Every listed type is judged before it is written**, one shape a case. -/
theorem judged_of_mem_judgedTypes :
    ∀ x ∈ judgedTypes, Codec.JudgedFirst x.validate x.type.schema.wire := by
  simp only [judgedTypes, List.forall_mem_cons]
  exact ⟨CreateAccountOp.judged, BumpSequenceOp.judged, SetOptionsOp.judged, ManageDataOp.judged,
    PaymentOp.judged, PathPaymentStrictReceiveOp.judged, PathPaymentStrictSendOp.judged,
    ManageSellOfferOp.judged, ManageBuyOfferOp.judged, CreatePassiveSellOfferOp.judged,
    ChangeTrustOp.judged, SetTrustLineFlagsOp.judged, ClawbackOp.judged,
    CreateClaimableBalanceOp.judged, LiquidityPoolDepositOp.judged, LiquidityPoolWithdrawOp.judged,
    ExtendFootprintTtlOp.judged, Signer.judged, LiquidityPoolParameters.judged, DataEntry.judged,
    ClaimableBalanceEntry.judged, nofun⟩

/-- **A value is written exactly if it is valid.** An invalid one is refused with what its rules
say, and the writer is as it was. A valid one is written behind whatever the writer holds, so
whatever a constructor lets pass can be encoded. -/
theorem valid_iff_written : ∀ x ∈ judgedTypes, ∀ v : x.type.Value,
    (∀ e, x.validate v = .error e → ∀ w, x.type.schema.wire.put v w = (.error e, w))
      ∧ (x.validate v = .ok () →
        ∃ out : Bytes, ∀ w, x.type.schema.wire.put v w = (.ok (), ⟨w.content ++ out⟩))
      ∧ ∀ u, checked x.validate v = .ok u → ∃ bytes, x.type.encode u = .ok bytes := by
  intro x hx v
  have hjudged := judged_of_mem_judgedTypes x hx
  refine ⟨fun e he => hjudged.put_of_error he, hjudged.put_of_ok, fun u hu => ?_⟩
  obtain ⟨hvalid, rfl⟩ := checked_eq_ok_iff.1 hu
  obtain ⟨out, hout⟩ := hjudged.writable hvalid
  exact ⟨out, Codec.Writes.encode_eq hout⟩

/-- A payment on a path with a code that is too short for its width leaves no trace; with a longer
code it is written. -/
theorem valid_iff_written_path :
    let payment (code : String) : PathPaymentStrictSendOp :=
      ⟨.native, ⟨1⟩, .ed25519 ⟨Vector.replicate 32 0⟩, .native, ⟨1⟩,
        [.credit .twelve ⟨code, ⟨Vector.replicate 32 0⟩⟩]⟩
    (∀ w, PathPaymentStrictSendOp.schema.wire.put (payment "USD") w
        = (.error (.validation "asset_code" (.codeLength "USD" 5 12)), w))
      ∧ ∃ out : Bytes, ∀ w, PathPaymentStrictSendOp.schema.wire.put (payment "USDOLLAR") w
        = (.ok (), ⟨w.content ++ out⟩) := by
  intro payment
  have hmem : .of "PathPaymentStrictSendOp" PathPaymentStrictSendOp.schema
      PathPaymentStrictSendOp.validate ∈ judgedTypes := by simp [judgedTypes]
  have hrefused : (payment "USD").validate
      = .error (.validation "asset_code" (.codeLength "USD" 5 12)) := by decide +kernel
  have hvalid : (payment "USDOLLAR").validate = .ok () := by decide +kernel
  exact ⟨(valid_iff_written _ hmem (payment "USD")).1 _ hrefused,
    (valid_iff_written _ hmem (payment "USDOLLAR")).2.1 hvalid⟩

end LedgerWire
