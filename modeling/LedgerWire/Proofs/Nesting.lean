/-
# Nested values

Conditions, contract values and approved calls contain each other, and one limit bounds how many of
them stand on one way into a value.

* `nesting_limit_exact` — a value is refused exactly if it is nested deeper than the limit, and the
  limit has no other effect.
-/

import LedgerWire.Proofs.Catalogue
import LedgerWire.Proofs.Wire.Depth

namespace LedgerWire

/-! ### The limit -/

/-- **The limit on nesting is exact, and does nothing else.** What was written is read under the
limits that its nesting does not exceed, and refused under the others. On any bytes, a reader with a
low limit refuses to go deeper, or ends as one with a higher limit does, with the same bytes left.
So whatever the bytes, no value that is read is nested deeper than the limit, and no tree of calls
is higher. -/
theorem nesting_limit_exact :
    (∀ x ∈ measuredTypes, ∀ limit : Nat,
      (∀ v bytes, x.type.encode v = .ok bytes →
        (x.nesting v ≤ limit →
          x.type.schema.wire.get (.start bytes limit) = (.ok v, .start [] limit))
        ∧ (limit < x.nesting v →
          (x.type.schema.wire.get (.start bytes limit)).1 = .error (.depthLimitExceeded limit)))
      ∧ (∀ bytes limit', limit ≤ limit' →
        (x.type.schema.wire.get (.start bytes limit)).1 = .error (.depthLimitExceeded limit)
        ∨ ((x.type.schema.wire.get (.start bytes limit)).1
            = (x.type.schema.wire.get (.start bytes limit')).1
          ∧ (x.type.schema.wire.get (.start bytes limit)).2.unread
            = (x.type.schema.wire.get (.start bytes limit')).2.unread))
      ∧ ∀ bytes v r, x.type.schema.wire.get (.start bytes limit) = (.ok v, r) →
        x.nesting v ≤ limit)
    ∧ ∀ limit bytes t r,
      SorobanAuthorizedInvocation.schema.wire.get (.start bytes limit) = (.ok t, r) →
        t.depth ≤ limit := by
  refine ⟨fun x _ limit => ⟨fun v bytes hbytes => ⟨fun hle => ?_, fun hlt => ?_⟩,
    fun bytes limit' hle => ?_, fun bytes v r hget => ?_⟩, fun limit bytes t r hget => ?_⟩
  · exact (x.regular limit).get_of_encode hle hbytes
  · exact Codec.Regular.get_of_encode_deep x.regular hlt hbytes
  · exact (x.regular limit').get_start hle bytes
  · exact Codec.Regular.nesting_le_of_get x.regular hget
  -- The nesting counts what the depth does and the arguments besides.
  · have hnesting : t.nesting ≤ limit :=
      Codec.Regular.nesting_le_of_get SorobanAuthorizedInvocation.regular hget
    exact Nat.le_trans t.depth_le_nesting hnesting

/-- A vector of one number is read under the limit 2, and refused under the limit 1. -/
theorem nesting_limit_exact_vec :
    ScVal.schema.wire.get (.start [0, 0, 0, 16, 0, 0, 0, 1, 0, 0, 0, 1, 0, 0, 0, 3, 0, 0, 0, 7] 2)
      = (.ok (.vec (some [.u32 7])), .start [] 2)
    ∧ (ScVal.schema.wire.get
        (.start [0, 0, 0, 16, 0, 0, 0, 1, 0, 0, 0, 1, 0, 0, 0, 3, 0, 0, 0, 7] 1)).1
      = .error (.depthLimitExceeded 1)
    ∧ ScVal.nesting (.vec (some [.u32 7])) ≤ 2 := by
  have hfound : measuredTypes.find? (·.type.name == "ScVal")
      = some (.of "ScVal" ScVal.schema ScVal.nesting ScVal.regular) := rfl
  have hmem := List.mem_of_find?_eq_some hfound
  have hwritten : ScVal.schema.wire.encode (.vec (some [.u32 7]))
      = .ok [0, 0, 0, 16, 0, 0, 0, 1, 0, 0, 0, 1, 0, 0, 0, 3, 0, 0, 0, 7] := by decide +kernel
  have hlow := nesting_limit_exact.1 _ hmem 1
  have hhigh := nesting_limit_exact.1 _ hmem 2
  have hread := (hhigh.1 _ _ hwritten).1 (by decide)
  exact ⟨hread, (hlow.1 _ _ hwritten).2 (by decide), hhigh.2.2 _ _ _ hread⟩

end LedgerWire
