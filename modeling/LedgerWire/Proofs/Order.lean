/-
# The order of assets

Assets are compared by their kinds, then by their codes, then by the addresses of their issuers, and
the types that extend them by the same comparison, with pool shares at the end. Each comparison is a
total order, and it takes two values for equal only if they are: a code is determined by its bytes,
and an issuer by its address.

* `LawfulOrder` — the laws of a total order, and that it agrees with equality.
* `compare_bytes_eq_lt` — byte strings are compared as in a dictionary.
* `Asset.compare_credits` — so are the assets of one kind, code first.
* `assets_ordered` — the laws for the four types, the order of assets, and how they are extended.
-/

import LedgerWire.Asset.Pool
import LedgerWire.Proofs.Texts

namespace LedgerWire

/-! ### Laws -/

/-- A comparison is a total order, in which only equal values are equal. -/
structure LawfulOrder (α : Type) [Ord α] : Prop where
  total : ∀ a b : α, (compare a b).isLE ∨ (compare b a).isLE
  swap : ∀ a b : α, compare b a = (compare a b).swap
  antisymm : ∀ a b : α, (compare a b).isLE → (compare b a).isLE → a = b
  trans : ∀ a b c : α, (compare a b).isLE → (compare b c).isLE → (compare a c).isLE
  lt_trans : ∀ a b c : α, compare a b = .lt → compare b c = .lt → compare a c = .lt
  eq_iff : ∀ a b : α, compare a b = .eq ↔ a = b

/-- All the laws follow from the two classes of comparisons. -/
theorem LawfulOrder.ofClasses (α : Type) [Ord α] [Std.TransOrd α] [Std.LawfulEqOrd α] :
    LawfulOrder α where
  total a b := by
    rw [Std.OrientedOrd.eq_swap (a := b)]
    cases compare a b with
    | lt => exact .inl rfl
    | eq => exact .inl rfl
    | gt => exact .inr rfl
  swap _ _ := Std.OrientedOrd.eq_swap
  antisymm a b hab hba := by
    refine Std.LawfulEqOrd.eq_of_compare ?_
    rw [Std.OrientedOrd.eq_swap] at hba
    cases hcompare : compare a b with
    | lt =>
        rw [hcompare] at hba
        cases hba
    | eq => rfl
    | gt =>
        rw [hcompare] at hab
        cases hab
  trans _ _ _ := Std.TransOrd.isLE_trans
  lt_trans _ _ _ := Std.TransCmp.lt_trans
  eq_iff _ _ := Std.compare_eq_iff_eq

/-! ### Byte strings -/

/-- **Byte strings are compared as in a dictionary.** -/
theorem compare_bytes_eq_lt {xs ys : Bytes} : compare xs ys = .lt ↔ xs < ys := by
  induction xs generalizing ys with
  | nil =>
      cases ys with
      | nil => simp
      | cons y ys => simp
  | cons x xs ih =>
      cases ys with
      | nil => simp
      | cons y ys =>
          rw [List.compare_cons_cons, Ordering.then_eq_lt, List.cons_lt_cons_iff, ih,
            Std.compare_eq_lt, Std.compare_eq_iff_eq]

/-! ### Hashes and pools -/

instance : Std.TransOrd Hash := inferInstanceAs (Std.TransCmp (compareOn Hash.toList))

instance : Std.LawfulEqOrd Hash where
  eq_of_compare {a b} h := by
    have hbytes : a.toList = b.toList := Std.compare_eq_iff_eq.1 h
    cases a
    cases b
    exact congrArg Hash.mk (Vector.toList_inj.1 hbytes)

instance : Std.TransOrd PoolId := inferInstanceAs (Std.TransCmp (compareOn PoolId.hash))

instance : Std.LawfulEqOrd PoolId where
  eq_of_compare {a b} h := by
    have hhash : a.hash = b.hash := Std.compare_eq_iff_eq.1 h
    cases a
    cases b
    exact congrArg PoolId.mk hhash

/-! ### Assets -/

/-- Different accounts have different texts, so the order by text is one of accounts. -/
theorem AccountId.text_injective {a b : AccountId} (h : a.text = b.text) : a = b := by
  have hread := a.ofText_text
  rw [h, b.ofText_text] at hread
  exact (Except.ok.inj hread).symm

namespace Asset

variable {width : CodeWidth} {c d : Credit}

instance : Std.TransOrd Asset :=
  inferInstanceAs <| Std.TransCmp <| compareLex (compareOn rank) <|
    compareLex (compareOn fun a => a.orderKey.1) (compareOn fun a => a.orderKey.2)

/-- Bytes of codes and addresses determine the credit. -/
theorem credit_eq_of_orderKey (hcode : Bytes.ofString c.code = Bytes.ofString d.code)
    (hissuer : Bytes.ofString c.issuer.text = Bytes.ofString d.issuer.text) : c = d := by
  cases c
  cases d
  have hcode := Text.ofString_injective hcode
  have hissuer := AccountId.text_injective (Text.ofString_injective hissuer)
  cases hcode
  cases hissuer
  rfl

instance : Std.LawfulEqOrd Asset where
  eq_of_compare {a b} h := by
    obtain ⟨hrank, hkey⟩ := Ordering.then_eq_eq.1 h
    obtain ⟨hcode, hissuer⟩ := Ordering.then_eq_eq.1 hkey
    have hrank : a.rank = b.rank := Std.compare_eq_iff_eq.1 hrank
    have hcode : a.orderKey.1 = b.orderKey.1 := Std.compare_eq_iff_eq.1 hcode
    have hissuer : a.orderKey.2 = b.orderKey.2 := Std.compare_eq_iff_eq.1 hissuer
    -- The rank tells the kinds apart, so that the keys are those of two credits of one width.
    cases a with
    | native =>
        cases b with
        | native => rfl
        | credit width d => cases width <;> cases hrank
    | credit width c =>
        cases b with
        | native => cases width <;> cases hrank
        | credit width' d =>
            have hwidth : width = width' := by
              cases width <;> cases width' <;> first | rfl | cases hrank
            subst hwidth
            exact congrArg (credit width) (credit_eq_of_orderKey hcode hissuer)

/-- **Assets of one kind are ordered by the bytes of their codes, then by those of their issuers'
addresses.** -/
theorem compare_credits :
    compare (Asset.credit width c) (.credit width d) = .lt ↔
      Bytes.ofString c.code < Bytes.ofString d.code
        ∨ c.code = d.code ∧ Bytes.ofString c.issuer.text < Bytes.ofString d.issuer.text := by
  have hrank : compare (rank (.credit width c)) (rank (.credit width d)) = .eq := by
    cases width <;> rfl
  have hcode : compare (Bytes.ofString c.code) (Bytes.ofString d.code) = .eq ↔ c.code = d.code := by
    rw [Std.compare_eq_iff_eq]
    exact ⟨Text.ofString_injective, congrArg _⟩
  show ((compare (rank (.credit width c)) (rank (.credit width d))).then <|
    (compare (Bytes.ofString c.code) (Bytes.ofString d.code)).then
      (compare (Bytes.ofString c.issuer.text) (Bytes.ofString d.issuer.text))) = .lt ↔ _
  rw [hrank, Ordering.eq_then, Ordering.then_eq_lt, compare_bytes_eq_lt, compare_bytes_eq_lt, hcode]

end Asset

/-! ### Pool parameters -/

namespace LiquidityPoolParameters

instance : Std.TransOrd LiquidityPoolParameters :=
  inferInstanceAs <| Std.TransCmp <| compareLex (compareOn assetA) <|
    compareLex (compareOn assetB) (compareOn fun p => p.fee.toInt)

instance : Std.LawfulEqOrd LiquidityPoolParameters where
  eq_of_compare {p q} h := by
    obtain ⟨ha, hrest⟩ := Ordering.then_eq_eq.1 h
    obtain ⟨hb, hfee⟩ := Ordering.then_eq_eq.1 hrest
    have ha : p.assetA = q.assetA := Std.compare_eq_iff_eq.1 ha
    have hb : p.assetB = q.assetB := Std.compare_eq_iff_eq.1 hb
    have hfee : p.fee = q.fee := Int32.toInt_inj.1 (Std.compare_eq_iff_eq.1 hfee)
    cases p
    cases q
    cases ha
    cases hb
    cases hfee
    rfl

end LiquidityPoolParameters

/-! ### What trust lines hold -/

namespace LineAsset

variable {Share : Type} [Ord Share]

/-- **Assets are compared as among themselves**: what they are without pool shares decides. -/
theorem compare_asset (a b : Asset) :
    compare (asset a : LineAsset Share) (asset b) = compare a b := by
  cases a with
  | native =>
      cases b with
      | native => rfl
      | credit width d => rfl
  | credit width c =>
      cases b with
      | native => rfl
      | credit width d => rfl

/-- A plain asset comes before every pool share. -/
theorem compare_asset_poolShare (a : Asset) (s : Share) :
    compare (asset a) (poolShare s) = .lt := by
  cases a with
  | native => rfl
  | credit width c => rfl

/-- A pool share comes after every plain asset. -/
theorem compare_poolShare_asset (s : Share) (a : Asset) :
    compare (poolShare s) (asset a) = .gt := by
  cases a with
  | native => rfl
  | credit width c => rfl

instance [Std.TransOrd Share] : Std.TransOrd (LineAsset Share) where
  eq_swap {x y} := by
    cases x using assetOrShare with
    | asset a =>
        cases y using assetOrShare with
        | asset b =>
            rw [compare_asset, compare_asset]
            exact Std.OrientedOrd.eq_swap
        | poolShare t =>
            rw [compare_asset_poolShare, compare_poolShare_asset]
            rfl
    | poolShare s =>
        cases y using assetOrShare with
        | asset b =>
            rw [compare_poolShare_asset, compare_asset_poolShare]
            rfl
        | poolShare t => exact Std.OrientedOrd.eq_swap (α := Share)
  isLE_trans {x y z} hxy hyz := by
    cases x using assetOrShare with
    | asset a =>
        cases z using assetOrShare with
        | poolShare u =>
            rw [compare_asset_poolShare]
            rfl
        | asset c =>
            cases y using assetOrShare with
            | asset b =>
                rw [compare_asset] at hxy hyz ⊢
                exact Std.TransOrd.isLE_trans hxy hyz
            | poolShare t =>
                rw [compare_poolShare_asset] at hyz
                cases hyz
    | poolShare s =>
        cases y using assetOrShare with
        | asset b =>
            rw [compare_poolShare_asset] at hxy
            cases hxy
        | poolShare t =>
            cases z using assetOrShare with
            | asset c =>
                rw [compare_poolShare_asset] at hyz
                cases hyz
            | poolShare u => exact Std.TransOrd.isLE_trans (α := Share) hxy hyz

instance [Std.TransOrd Share] [Std.LawfulEqOrd Share] : Std.LawfulEqOrd (LineAsset Share) where
  eq_of_compare {x y} h := by
    cases x using assetOrShare with
    | asset a =>
        cases y using assetOrShare with
        | asset b =>
            rw [compare_asset] at h
            exact congrArg asset (Std.compare_eq_iff_eq.1 h)
        | poolShare t =>
            rw [compare_asset_poolShare] at h
            cases h
    | poolShare s =>
        cases y using assetOrShare with
        | asset b =>
            rw [compare_poolShare_asset] at h
            cases h
        | poolShare t => exact congrArg poolShare (Std.compare_eq_iff_eq (α := Share).1 h)

/-- Assets are compared in the wider type as among themselves, they are what is left of it without
pool shares, and every pool share comes after them. -/
structure Extends (Share : Type) [Ord Share] : Prop where
  compare_asset : ∀ a b, compare (asset a : LineAsset Share) (asset b) = compare a b
  asset?_eq_some_iff : ∀ (x : LineAsset Share) a, x.asset? = some a ↔ x = asset a
  lt_poolShare : ∀ (x : LineAsset Share) s, x.share? = none → compare x (poolShare s) = .lt

/-- **The order of lines extends the order of assets**, whatever the shares are. -/
theorem extends_assets : Extends Share where
  compare_asset := LineAsset.compare_asset
  asset?_eq_some_iff _ _ := LineAsset.asset?_eq_some_iff
  lt_poolShare x s h := by
    cases x using assetOrShare with
    | asset a => exact compare_asset_poolShare a s
    | poolShare t => cases h

end LineAsset

/-- **All asset types share one lawful order.** Each of the four comparisons is a total order that
agrees with equality, for valid and invalid values alike. Among assets it is that of the kinds, the
bytes of the codes and the addresses of the issuers. What trust lines hold extends it. -/
theorem assets_ordered :
    LawfulOrder Asset ∧ LawfulOrder ChangeTrustAsset ∧ LawfulOrder TrustLineAsset
      ∧ LawfulOrder LiquidityPoolParameters
      ∧ (∀ width c, compare Asset.native (.credit width c) = .lt)
      ∧ (∀ c d, compare (Asset.credit .four c) (.credit .twelve d) = .lt)
      ∧ (∀ width c d, compare (Asset.credit width c) (.credit width d) = .lt ↔
          Bytes.ofString c.code < Bytes.ofString d.code
            ∨ c.code = d.code ∧ Bytes.ofString c.issuer.text < Bytes.ofString d.issuer.text)
      ∧ LineAsset.Extends LiquidityPoolParameters ∧ LineAsset.Extends PoolId := by
  refine ⟨.ofClasses Asset, .ofClasses ChangeTrustAsset, .ofClasses TrustLineAsset,
    .ofClasses LiquidityPoolParameters, fun width c => ?_, fun c d => ?_, fun width c d => ?_,
    LineAsset.extends_assets, LineAsset.extends_assets⟩
  · cases width <;> rfl
  · rfl
  · exact Asset.compare_credits

end LedgerWire
