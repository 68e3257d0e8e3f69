/-
# Pools have one name

A pool is named by the hash of its parameters, which list its two assets in ascending order. The
order of assets is total and strict, so of the two ways to list a pair one is accepted and the other
refused, and an asset makes no pair with itself. What is accepted has a wire form, and no other
parameters have the same one.

* `LiquidityPoolParameters.IsCanonical` — what accepted parameters obey.
* `withFee_eq_ok_iff` — the checked constructor gives exactly these.
* `encode_of_canonical` — they have a wire form, which is read as them again.
* `pool_named_once` — a pair and a fee have one name, in one order.
-/

import LedgerWire.Proofs.Order
import LedgerWire.Proofs.Types.Writable
import LedgerWire.Proofs.Wire.Whole

namespace LedgerWire.LiquidityPoolParameters

variable {a b : Asset} {fee : Int32} {p q : LiquidityPoolParameters} {bytes : Bytes}

/-! ### Accepted parameters -/

/-- Two valid assets in ascending order, and a fee of less than everything. -/
structure IsCanonical (p : LiquidityPoolParameters) : Prop where
  assetA : p.assetA.validate = .ok ()
  assetB : p.assetB.validate = .ok ()
  ascending : compare p.assetA p.assetB = .lt
  fee_nonneg : 0 ≤ p.fee
  fee_lt : p.fee < 10000

/-- The parameters that pass are the canonical ones. -/
theorem validate_eq_ok_iff : p.validate = .ok () ↔ p.IsCanonical := by
  constructor
  · intro h
    obtain ⟨ha, h⟩ := seq_eq_ok_iff.1 h
    obtain ⟨hb, h⟩ := seq_eq_ok_iff.1 h
    obtain ⟨horder, h⟩ := unless_eq_ok_iff.1 h
    obtain ⟨hfee, -⟩ := unless_eq_ok_iff.1 h
    rw [not_or, Int32.not_lt, Int32.not_le] at hfee
    exact ⟨ha, hb, not_not.1 horder, hfee.1, hfee.2⟩
  · intro h
    have hfee : ¬(p.fee < 0 ∨ Limits.poolFeeEnd ≤ p.fee) := by
      rw [not_or, Int32.not_lt, Int32.not_le]
      exact ⟨h.fee_nonneg, h.fee_lt⟩
    refine seq_eq_ok_iff.2 ⟨h.assetA, seq_eq_ok_iff.2 ⟨h.assetB, ?_⟩⟩
    refine unless_eq_ok_iff.2 ⟨not_not.2 h.ascending, ?_⟩
    exact unless_eq_ok_iff.2 ⟨hfee, rfl⟩

/-- **The checked constructor lists what it is given, and accepts canonical parameters only.** -/
theorem withFee_eq_ok_iff : withFee a b fee = .ok p ↔ p = ⟨a, b, fee⟩ ∧ p.IsCanonical := by
  unfold withFee
  rw [checked_eq_ok_iff, validate_eq_ok_iff]
  constructor
  · rintro ⟨h, rfl⟩
    exact ⟨rfl, h⟩
  · rintro ⟨rfl, h⟩
    exact ⟨h, rfl⟩

/-- The assets, listed in this order, make a pool with this fee. -/
def Accepts (a b : Asset) (fee : Int32) : Prop := ∃ p, withFee a b fee = .ok p

/-- What the constructor accepts is what the check passes. -/
theorem accepts_iff : Accepts a b fee ↔ IsCanonical ⟨a, b, fee⟩ := by
  constructor
  · rintro ⟨p, hp⟩
    obtain ⟨rfl, h⟩ := withFee_eq_ok_iff.1 hp
    exact h
  · intro h
    exact ⟨_, withFee_eq_ok_iff.2 ⟨rfl, h⟩⟩

/-- Between valid assets and with a fee that is a share, the order alone decides. -/
theorem accepts_iff_lt (ha : a.validate = .ok ()) (hb : b.validate = .ok ()) (hnonneg : 0 ≤ fee)
    (hlt : fee < 10000) : Accepts a b fee ↔ compare a b = .lt := by
  rw [accepts_iff]
  constructor
  · intro h
    exact h.ascending
  · intro h
    exact ⟨ha, hb, h, hnonneg, hlt⟩

/-! ### One order of a pair -/

/-- **Of two assets exactly one comes first.** -/
theorem xor_compare_eq_lt (hne : a ≠ b) : Xor (compare a b = .lt) (compare b a = .lt) := by
  rw [Std.OrientedOrd.eq_swap (a := b)]
  cases hcompare : compare a b with
  | lt => exact .inl ⟨rfl, nofun⟩
  | eq => exact absurd (Std.LawfulEqOrd.eq_of_compare hcompare) hne
  | gt => exact .inr ⟨rfl, nofun⟩

/-- **No asset makes a pair with itself.** -/
theorem not_accepts_self : ¬Accepts a a fee := by
  intro h
  have hlt : compare a a = .lt := (accepts_iff.1 h).ascending
  rw [Std.compare_self] at hlt
  cases hlt

/-- What keeps a pair from making a pool in either order. -/
theorem not_accepts_of_fault
    (h : fee < 0 ∨ 10000 ≤ fee ∨ a.validate ≠ .ok () ∨ b.validate ≠ .ok ()) :
    ¬Accepts a b fee := by
  intro haccepts
  have hcanonical := accepts_iff.1 haccepts
  rcases h with hnegative | hlarge | ha | hb
  · exact Int32.not_lt.2 hcanonical.fee_nonneg hnegative
  · exact Int32.not_le.2 hcanonical.fee_lt hlarge
  · exact ha hcanonical.assetA
  · exact hb hcanonical.assetB

/-! ### The name -/

/-- **Canonical parameters have a wire form, and it is read as them again.** -/
theorem encode_of_canonical (h : p.IsCanonical) :
    ∃ bytes, schema.wire.encode p = .ok bytes
      ∧ ∀ limit, schema.wire.decode bytes limit = .ok p :=
  flat.read_of_writable (judged.writable (validate_eq_ok_iff.2 h))

/-- **No two parameters have their names from the same bytes.** -/
theorem idPreimage_injective (hp : p.idPreimage = .ok bytes) (hq : q.idPreimage = .ok bytes) :
    p = q :=
  Codec.Regular.encode_injective flat hp hq

/-- **A pair of assets and a fee name one pool, in one order.** Whoever lists two valid assets is
accepted in one order and refused in the other; the accepted parameters are written, read again and
named by the hash of what is written, and only the same assets with the same fee are named by the
hash of the same bytes. -/
theorem pool_named_once :
    (∀ {a b : Asset} {fee : Int32}, a.validate = .ok () → b.validate = .ok () → 0 ≤ fee →
      fee < 10000 →
      (a ≠ b → Xor (Accepts a b fee) (Accepts b a fee))
        ∧ (a = b → ¬Accepts a b fee ∧ ¬Accepts b a fee))
    ∧ (∀ {a b : Asset} {fee : Int32},
      fee < 0 ∨ 10000 ≤ fee ∨ a.validate ≠ .ok () ∨ b.validate ≠ .ok () →
      ¬Accepts a b fee ∧ ¬Accepts b a fee)
    ∧ (∀ {a b : Asset} {fee : Int32} {p}, withFee a b fee = .ok p →
      p = ⟨a, b, fee⟩ ∧ ∃ bytes, schema.wire.encode p = .ok bytes
        ∧ (∀ limit, schema.wire.decode bytes limit = .ok p)
        ∧ p.idPreimage = .ok bytes ∧ p.poolId = .ok ⟨sha256 bytes⟩)
    ∧ ∀ {a b a' b' : Asset} {fee fee' : Int32} {p p' bytes}, withFee a b fee = .ok p →
      withFee a' b' fee' = .ok p' → p.idPreimage = .ok bytes → p'.idPreimage = .ok bytes →
      a = a' ∧ b = b' ∧ fee = fee' := by
  refine ⟨?_, ?_, ?_, ?_⟩
  · intro a b fee ha hb hnonneg hlt
    constructor
    · intro hne
      rw [accepts_iff_lt ha hb hnonneg hlt, accepts_iff_lt hb ha hnonneg hlt]
      exact xor_compare_eq_lt hne
    · rintro rfl
      exact ⟨not_accepts_self, not_accepts_self⟩
  · intro a b fee h
    have hswapped : fee < 0 ∨ 10000 ≤ fee ∨ b.validate ≠ .ok () ∨ a.validate ≠ .ok () :=
      h.imp_right fun h => h.imp_right Or.symm
    exact ⟨not_accepts_of_fault h, not_accepts_of_fault hswapped⟩
  · intro a b fee p hp
    obtain ⟨rfl, hcanonical⟩ := withFee_eq_ok_iff.1 hp
    obtain ⟨bytes, hencode, hdecode⟩ := encode_of_canonical hcanonical
    have hid : poolId ⟨a, b, fee⟩ = .ok ⟨sha256 bytes⟩ := by
      unfold poolId idPreimage
      rw [hencode]
      rfl
    exact ⟨rfl, bytes, hencode, hdecode, hencode, hid⟩
  · intro a b a' b' fee fee' p p' bytes hp hp' hbytes hbytes'
    obtain ⟨rfl, -⟩ := withFee_eq_ok_iff.1 hp
    obtain ⟨rfl, -⟩ := withFee_eq_ok_iff.1 hp'
    have hsame : (⟨a, b, fee⟩ : LiquidityPoolParameters) = ⟨a', b', fee'⟩ :=
      idPreimage_injective hbytes hbytes'
    cases hsame
    exact ⟨rfl, rfl, rfl⟩

def dollar : Asset := .credit .four ⟨"USD", ⟨Vector.replicate 32 1⟩⟩

theorem pool_named_once_native_dollar :
    Xor (Accepts .native dollar 30) (Accepts dollar .native 30)
    ∧ ¬Accepts dollar dollar 30 ∧ ¬Accepts .native dollar 10000
    ∧ ∃ bytes, schema.wire.encode ⟨.native, dollar, 30⟩ = .ok bytes
      ∧ poolId ⟨.native, dollar, 30⟩ = .ok ⟨sha256 bytes⟩
      ∧ ∀ {a b fee p}, withFee a b fee = .ok p → p.idPreimage = .ok bytes →
        a = .native ∧ b = dollar ∧ fee = 30 := by
  obtain ⟨horders, hfaults, hnames, hdistinct⟩ := pool_named_once
  have hnative : Asset.native.validate = .ok () := rfl
  have hdollar : dollar.validate = .ok () := by decide +kernel
  have hmade : withFee .native dollar 30 = .ok ⟨.native, dollar, 30⟩ := by decide +kernel
  have hnonneg : (0 : Int32) ≤ 30 := by decide
  have hlt : (30 : Int32) < 10000 := by decide
  obtain ⟨-, bytes, hencode, -, hpreimage, hid⟩ := hnames hmade
  refine ⟨?_, ?_, ?_, bytes, hencode, hid, ?_⟩
  · exact (horders hnative hdollar hnonneg hlt).1 nofun
  · exact ((horders hdollar hdollar hnonneg hlt).2 rfl).1
  · exact (hfaults (.inr (.inl (by decide)))).1
  · intro a b fee p hp hsame
    exact hdistinct hp hmade hsame hpreimage

end LedgerWire.LiquidityPoolParameters
