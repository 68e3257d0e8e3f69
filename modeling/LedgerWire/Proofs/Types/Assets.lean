/-
# Assets and pools are regular

The code of a credit is the one field whose bytes allow some freedom: it is filled up with zeros,
and it is judged in both directions. `codeView` says that the judgement leaves none of it.

* `codeView` — codes that obey their rules, and the bytes that spell one.
* `Asset.flat`, `ChangeTrustAsset.flat`, `TrustLineAsset.flat` — the unions that assets are part of.
-/

import LedgerWire.Proofs.Types.Names

namespace LedgerWire

open Codec (Flat Parts Regular View)

/-! ### Codes -/

variable {width : CodeWidth} {code : String}

/-- **A code is in order** by its length and its bytes. -/
theorem codeViolation?_eq_none_iff : codeViolation? width code = none ↔
    width.low ≤ (Bytes.ofString code).length ∧ (Bytes.ofString code).length ≤ width.high
      ∧ (Bytes.ofString code).all isCodeByte = true := by
  unfold codeViolation?
  simp only
  split
  · rename_i h
    simp only [reduceCtorEq, false_iff]
    omega
  · rename_i h
    split
    · rename_i hall
      simp only [reduceCtorEq, false_iff]
      rintro ⟨-, -, h'⟩
      simp [h'] at hall
    · rename_i hall
      simp only [true_iff]
      exact ⟨by omega, by omega, by simpa using hall⟩

/-- The check passes the codes in which nothing is wrong. -/
theorem checkCode_eq_ok_iff : checkCode width code = .ok () ↔ codeViolation? width code = none := by
  unfold checkCode
  cases codeViolation? width code <;> simp

/-- A code of at most the field's length stands in it, with zeros behind. -/
theorem toList_codeBytes (h : (Bytes.ofString code).length ≤ width.high) :
    (codeBytes width code).toList = Bytes.ofString code
      ++ List.replicate (width.high - (Bytes.ofString code).length) 0 := by
  apply List.ext_getElem
  · simp
    omega
  · intro i hi hi'
    simp only [codeBytes, Vector.getElem_toList, Vector.getElem_ofFn, List.getElem_append,
      List.getElem_replicate, List.getD_eq_getElem?_getD]
    split
    · rename_i hlt
      simp [hlt]
    · rename_i hlt
      simp [List.getElem?_eq_none (Nat.le_of_not_lt hlt)]

/-- No byte of a code is the zero that it is padded with. -/
theorem ne_zero_of_isCodeByte {b : UInt8} (h : isCodeByte b = true) : b ≠ 0 := by
  rintro rfl
  simp [isCodeByte] at h

/-- The bytes in front of the first zero, with zeros behind them. -/
private theorem append_zeros {raw : Bytes} (h : ¬(raw.dropWhile (· ≠ 0)).any (· ≠ 0) = true) :
    raw = raw.takeWhile (· ≠ 0)
      ++ List.replicate (raw.length - (raw.takeWhile (· ≠ 0)).length) 0 := by
  have hsplit := List.takeWhile_append_dropWhile (p := (· ≠ (0 : UInt8))) (l := raw)
  have hlen := congrArg List.length hsplit
  rw [List.length_append] at hlen
  have hzeros : raw.dropWhile (· ≠ 0) = List.replicate (raw.dropWhile (· ≠ 0)).length 0 := by
    refine List.eq_replicate_iff.2 ⟨rfl, fun b hb => ?_⟩
    by_contra hne
    exact h (List.any_eq_true.2 ⟨b, hb, by simpa using hne⟩)
  conv_lhs => rw [← hsplit, hzeros]
  congr 2
  omega

/-- **A field of bytes holds a code exactly when the code is valid and written as these bytes.** -/
theorem codeOfBytes_eq_ok_iff {raw : Vector UInt8 width.high} : codeOfBytes width raw = .ok code ↔
    codeViolation? width code = none ∧ codeBytes width code = raw := by
  constructor
  · intro h
    unfold codeOfBytes at h
    simp only at h
    split at h
    · cases h
    · rename_i hzeros
      split at h
      · cases h
      · rename_i text htext
        split at h
        · cases h
        · rename_i hviolation
          cases h
          have hcode := Bytes.toText?_eq_some_iff.1 htext
          refine ⟨hviolation, Vector.toList_inj.1 ?_⟩
          rw [toList_codeBytes (codeViolation?_eq_none_iff.1 hviolation).2.1, ← hcode]
          simpa using (append_zeros hzeros).symm
  · rintro ⟨hviolation, rfl⟩
    obtain ⟨-, hhigh, hall⟩ := codeViolation?_eq_none_iff.1 hviolation
    -- No byte of a code is zero, so the code ends where the zeros start.
    have hne : ∀ b ∈ Bytes.ofString code, decide (b ≠ 0) = true := fun b hb =>
      decide_eq_true (ne_zero_of_isCodeByte (List.all_eq_true.1 hall b hb))
    have htext : (Bytes.ofString code).toText? = some code := Bytes.toText?_eq_some_iff.2 rfl
    unfold codeOfBytes
    simp only [toList_codeBytes hhigh, List.takeWhile_append_of_pos hne,
      List.dropWhile_append_of_pos hne]
    simp [htext, hviolation]

/-- Valid codes are an exact view of their field. -/
theorem codeView (width : CodeWidth) :
    View (codeOfBytes width) (codeBytes width) (checkCode width) where
  toWire_of_ofWire h := (codeOfBytes_eq_ok_iff.1 h).2
  ofWire_toWire h := codeOfBytes_eq_ok_iff.2 ⟨checkCode_eq_ok_iff.1 h, rfl⟩
  judges := judges_checkCode width
  isRefusal {raw e} h := by
    unfold codeOfBytes at h
    simp only at h
    split at h
    · cases h
      trivial
    · split at h
      · cases h
        trivial
      · split at h
        · cases h
          trivial
        · cases h

/-! ### Credits and assets -/

theorem Credit.flat (width : CodeWidth) : (Credit.schema width).wire.Flat := by
  have hcode : ((codeSchema width).wire.guarded (checkCode width)).Flat := fun k =>
    .view (codeView width) (Codec.flat_fixed _ k)
  have hcredit : ((((codeSchema width).wire.guarded (checkCode width)).both AccountId.wire).imap
      (fun x => Credit.mk x.1 x.2) fun c => (c.code, c.issuer)).Flat :=
    .imap rfl rfl (hcode.both AccountId.flat)
  rwa [← Codec.guarded_both] at hcredit

namespace Asset

variable {α : Type} {k : Nat} {inject : Asset → α} {project : α → Option Asset}

/-- The arms of an asset, in a union of whose values some are assets. -/
theorem parts_arms (hproject : ∀ a, project (inject a) = some a) {rest : List (Codec.Arm α)}
    (hrest : Parts k (fun _ => 0) rest) :
    Parts k (fun _ => 0) ((arms inject project).map Schema.Arm.wire ++ rest) := by
  have hnative : (project (inject .native) == some .native) = true := by simp [hproject]
  have hcredit : ∀ w c, (project (inject (.credit w c))).bind (credit? w) = some c := by
    intro w c
    rw [hproject]
    exact if_pos rfl
  exact .bare hnative rfl <| .of (funext (hcredit .four)) (Credit.flat .four k) <|
    .of (funext (hcredit .twelve)) (Credit.flat .twelve k) hrest

theorem flat : Asset.schema.wire.Flat := by
  refine .union (fun a => ?_) rfl fun k => parts_arms (fun _ => rfl) .nil
  rcases a with _ | ⟨_ | _, _⟩ <;> rfl

theorem hungry : Asset.schema.wire.get.Hungry := Get.hungry_i32.bind _

end Asset

/-! ### Pools and what trust lines hold -/

theorem LiquidityPoolParameters.flat : LiquidityPoolParameters.schema.wire.Flat :=
  .guarded judges_pool <| .single <| .imap rfl rfl <| .both Asset.flat <|
    .both Asset.flat Codec.flat_i32

/-- A line is flat whenever its pool shares are. -/
theorem LineAsset.flat {Share : Type} {share : Schema Share} (h : share.wire.Flat) :
    (LineAsset.schemaOf share).wire.Flat := by
  refine .union (fun x => ?_) rfl fun k => ?_
  · rcases x with _ | ⟨_ | _, _⟩ | _ <;> rfl
  · show Parts k _ ((Asset.arms _ _).map Schema.Arm.wire ++ [_])
    exact Asset.parts_arms LineAsset.asset?_asset (.of rfl (h k) .nil)

theorem ChangeTrustAsset.flat : ChangeTrustAsset.schema.wire.Flat :=
  LineAsset.flat LiquidityPoolParameters.flat

theorem TrustLineAsset.flat : TrustLineAsset.schema.wire.Flat := LineAsset.flat PoolId.flat

theorem ClaimableBalanceId.flat : ClaimableBalanceId.schema.wire.Flat :=
  .single (.imap rfl rfl Hash.flat)

end LedgerWire
