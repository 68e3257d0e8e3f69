/-
# What the readers of contract data accept

Most operations and ledger entries can be read although they break a rule of their writers. Contract
values, calls, assets and signers cannot: a reader that accepts bytes accepts the encoding of a
value.

* `strictTypes` — the types of which this holds.
* `decoded_iff_encoded` — the byte strings that they decode are those that they encode.
-/

import LedgerWire.Proofs.Catalogue
import LedgerWire.Proofs.Types.Strict

namespace LedgerWire

/-- The types with values that are judged alike in both directions, measured. -/
def strictTypes : List MeasuredType :=
  [ .of "ScVal" ScVal.schema ScVal.nesting ScVal.regular,
    .of "ScContractInstance" ScContractInstance.schema ScVal.nestingInstance
      ScContractInstance.regular,
    .of "HostFunction" HostFunction.schema HostFunction.nesting HostFunction.regular,
    .of "SorobanAuthorizedInvocation" SorobanAuthorizedInvocation.schema
      SorobanAuthorizedInvocation.nesting SorobanAuthorizedInvocation.regular,
    .of "SorobanAuthorizationEntry" SorobanAuthorizationEntry.schema
      SorobanAuthorizationEntry.nesting SorobanAuthorizationEntry.regular,
    .of "InvokeHostFunctionOp" InvokeHostFunctionOp.schema InvokeHostFunctionOp.nesting
      InvokeHostFunctionOp.regular,
    .flat "Asset" Asset.schema Asset.flat,
    .flat "TrustLineAsset" TrustLineAsset.schema TrustLineAsset.flat,
    .flat "SignerKey" SignerKey.schema SignerKey.flat,
    .of "ClaimPredicate" ClaimPredicate.schema ClaimPredicate.nesting ClaimPredicate.regular,
    .flat "ConfigSettingEntry" ConfigSetting.schema ConfigSetting.flat ]

/-- **Every listed type is strict**, one shape a case. -/
theorem strict_of_mem_strictTypes : ∀ x ∈ strictTypes, x.type.schema.wire.Strict := by
  simp only [strictTypes, List.forall_mem_cons]
  exact ⟨ScVal.strict, ScContractInstance.strict, HostFunction.strict,
    SorobanAuthorizedInvocation.strict, SorobanAuthorizationEntry.strict,
    InvokeHostFunctionOp.strict, Asset.strict, TrustLineAsset.strict, SignerKey.strict,
    ClaimPredicate.strict, ConfigSetting.strict, nofun⟩

/-- **The decoders of contract data accept the encoder's image, and nothing else.** Bytes are
decoded to a value exactly if they are its encoding, and it is not nested too deep; so what is
decoded is always encoded again. -/
theorem decoded_iff_encoded : ∀ x ∈ strictTypes, ∀ bytes v,
    x.type.decode bytes = .ok v ↔
      x.nesting v ≤ Reader.defaultLimit ∧ x.type.encode v = .ok bytes :=
  fun x hx _ _ => (x.regular _).decode_eq_ok_iff_encode (strict_of_mem_strictTypes x hx)

/-- A symbol is decoded from its encoding. A text with a blank in it has none, so nothing is decoded
to it. -/
theorem decoded_iff_encoded_symbol :
    ScVal.schema.wire.decode [0, 0, 0, 15, 0, 0, 0, 3, 97, 95, 98, 0] = .ok (.symbol "a_b")
      ∧ ∀ bytes, ScVal.schema.wire.decode bytes ≠ .ok (.symbol "a b") := by
  have hmem : .of "ScVal" ScVal.schema ScVal.nesting ScVal.regular ∈ strictTypes :=
    List.mem_cons_self ..
  have hwritten : ScVal.schema.wire.encode (.symbol "a_b")
      = .ok [0, 0, 0, 15, 0, 0, 0, 3, 97, 95, 98, 0] := by decide +kernel
  have hrefused : (ScVal.schema.wire.encode (.symbol "a b")).isOk = false := by decide +kernel
  refine ⟨(decoded_iff_encoded _ hmem _ _).2 ⟨by decide, hwritten⟩, fun bytes hread => ?_⟩
  obtain ⟨-, hencoded⟩ := (decoded_iff_encoded _ hmem bytes (.symbol "a b")).1 hread
  have hencoded : ScVal.schema.wire.encode (.symbol "a b") = .ok bytes := hencoded
  rw [hencoded] at hrefused
  cases hrefused

end LedgerWire
