/-
# What the JSON projection keeps

Not every value is read from its projection: the text of an asset does not say how wide its code is
on the wire, and a code that is too short for its width is read as one of the other width. No such
value touches the wire. What was decoded, or can be encoded, is read from its projection again, even
if it breaks a rule that is judged on writing alone.

* `projectedTypes` — operations, entries, keys, and what contracts and claims are made of.
* `projection_lossless` — their values that touch the wire survive the way through JSON.
-/

import LedgerWire.Proofs.Catalogue
import LedgerWire.Proofs.Types.LosslessEntries

namespace LedgerWire

/-- The types that ledger data is exchanged as, measured. -/
def projectedTypes : List MeasuredType :=
  [ .of "Operation" Operation.schema Operation.nesting Operation.regular,
    .of "LedgerEntry" LedgerEntry.schema LedgerEntry.nesting LedgerEntry.regular,
    .of "LedgerKey" LedgerKey.schema LedgerKey.nesting LedgerKey.regular,
    .of "ScVal" ScVal.schema ScVal.nesting ScVal.regular,
    .of "SorobanAuthorizationEntry" SorobanAuthorizationEntry.schema
      SorobanAuthorizationEntry.nesting SorobanAuthorizationEntry.regular,
    .of "SorobanTransactionData" SorobanTransactionData.schema SorobanTransactionData.nesting
      SorobanTransactionData.regular,
    .of "ClaimPredicate" ClaimPredicate.schema ClaimPredicate.nesting ClaimPredicate.regular,
    .flat "ChangeTrustAsset" ChangeTrustAsset.schema ChangeTrustAsset.flat ]

/-- **Every listed type is lossless**, one shape a case. -/
theorem lossless_of_mem_projectedTypes : ∀ x ∈ projectedTypes, x.type.schema.Lossless := by
  simp only [projectedTypes, List.forall_mem_cons]
  exact ⟨Operation.lossless, LedgerEntry.lossless, LedgerKey.lossless, ScVal.lossless,
    SorobanAuthorizationEntry.lossless, SorobanTransactionData.lossless,
    ClaimPredicate.lossless, ChangeTrustAsset.lossless, nofun⟩

/-- **The projection loses nothing of what touches the wire.** A value that can be encoded, or that
some bytes were decoded to, is read from its projection, in whatever order a tree keeps the members;
so bytes that go through JSON come back, if the value in them can be encoded at all. -/
theorem projection_lossless : ∀ x ∈ projectedTypes, ∀ v,
    ((∃ bytes, x.type.encode v = .ok bytes) ∨ ∃ bytes, x.type.decode bytes = .ok v) →
      ∀ source j, (x.type.toJson v).Reordered j →
        x.type.ofJson source j = .ok v
          ∧ ∀ bytes, x.type.decode bytes = .ok v → (∃ out, x.type.encode v = .ok out) →
            ∃ u, x.type.ofJson source j = .ok u ∧ x.type.encode u = .ok bytes := by
  intro x hx v htouches source j hj
  have hreached : x.type.schema.wire.Reached v := by
    rcases htouches with ⟨bytes, hbytes⟩ | ⟨bytes, hbytes⟩
    · exact .of_encode hbytes
    · exact .of_decode hbytes
  have hread : x.type.ofJson source j = .ok v :=
    lossless_of_mem_projectedTypes x hx v hreached source j hj
  refine ⟨hread, fun bytes hbytes hencodes => ⟨v, hread, ?_⟩⟩
  obtain ⟨out, hout⟩ := hencodes
  obtain rfl := (x.regular Reader.defaultLimit).encode_of_decode (Nat.le_refl _) hbytes hout
  exact hout

/-- The removal of a data entry is shown without its value, and read from a tree that keeps its
members sorted by name; then it is encoded as the bytes that it was decoded from. -/
theorem projection_lossless_manageData :
    let removal : Operation := ⟨none, .manageData ⟨"a", none⟩⟩
    let sorted : Json := .obj
      [("body", .obj [("manage_data", .obj [("data_name", .str "a")])]), ("source_account", .null)]
    let bytes : Bytes := [0, 0, 0, 0, 0, 0, 0, 10, 0, 0, 0, 1, 97, 0, 0, 0, 0, 0, 0, 0]
    Operation.schema.wire.decode bytes = .ok removal
      ∧ Operation.schema.json.read .tree sorted = .ok removal
      ∧ ∃ op, Operation.schema.json.read .tree sorted = .ok op
        ∧ Operation.schema.wire.encode op = .ok bytes := by
  intro removal sorted bytes
  have hmem : .of "Operation" Operation.schema Operation.nesting Operation.regular
      ∈ projectedTypes := List.mem_cons_self ..
  have hwritten : Operation.schema.wire.encode removal = .ok bytes := by decide +kernel
  have hdecoded : Operation.schema.wire.decode bytes = .ok removal :=
    (Operation.regular Reader.defaultLimit).decode_of_encode (Nat.le_refl _) (by decide) hwritten
  have hsorted : (Operation.schema.json.write removal).Reordered sorted := by
    refine .obj (@Json.ReorderedMembers.insert _ _ _ _ [("body", _)] [] (.same _) ?_)
    exact .refl _
  obtain ⟨hread, hback⟩ :=
    projection_lossless _ hmem removal (.inr ⟨bytes, hdecoded⟩) .tree sorted hsorted
  exact ⟨hdecoded, hread, hback bytes hdecoded ⟨bytes, hwritten⟩⟩

end LedgerWire
