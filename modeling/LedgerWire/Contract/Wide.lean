/-
# Wide integers

Integers of 128 and 256 bits travel as words of 64 bits, highest first. The highest word carries
the sign, if there is one; the number is the words read as digits in base `2 ^ 64`.

* `UInt128Parts.toNat`, `Int128Parts.toInt` — the number of the words, and back with `ofNat` and
  `ofInt`.
-/

import LedgerWire.Schema.Record

namespace LedgerWire

structure UInt128Parts where
  hi : UInt64
  lo : UInt64
  deriving DecidableEq, Repr

structure Int128Parts where
  hi : Int64
  lo : UInt64
  deriving DecidableEq, Repr

structure UInt256Parts where
  hiHi : UInt64
  hiLo : UInt64
  loHi : UInt64
  loLo : UInt64
  deriving DecidableEq, Repr

structure Int256Parts where
  hiHi : Int64
  hiLo : UInt64
  loHi : UInt64
  loLo : UInt64
  deriving DecidableEq, Repr

open Schema

namespace UInt128Parts

/-- The words of a number below `2 ^ 128`. -/
def ofNat (n : Nat) : UInt128Parts := ⟨UInt64.ofNat (n / UInt64.size), UInt64.ofNat n⟩

def toNat (p : UInt128Parts) : Nat := p.hi.toNat * UInt64.size + p.lo.toNat

def schema : Schema UInt128Parts :=
  (field "hi" .u64 >> field "lo" .u64).record (fun (hi, lo) => ⟨hi, lo⟩) fun p => (p.hi, p.lo)

end UInt128Parts

namespace Int128Parts

/-- The words of a number from `-2 ^ 127` up to below `2 ^ 127`. -/
def ofInt (n : Int) : Int128Parts :=
  ⟨Int64.ofInt (n / UInt64.size), UInt64.ofNat (n % UInt64.size).toNat⟩

def toInt (p : Int128Parts) : Int := p.hi.toInt * UInt64.size + p.lo.toNat

def schema : Schema Int128Parts :=
  (field "hi" .i64 >> field "lo" .u64).record (fun (hi, lo) => ⟨hi, lo⟩) fun p => (p.hi, p.lo)

end Int128Parts

namespace UInt256Parts

def schema : Schema UInt256Parts :=
  (field "hi_hi" .u64 >> field "hi_lo" .u64 >> field "lo_hi" .u64 >> field "lo_lo" .u64).record
    (fun (hiHi, hiLo, loHi, loLo) => ⟨hiHi, hiLo, loHi, loLo⟩)
    fun p => (p.hiHi, p.hiLo, p.loHi, p.loLo)

end UInt256Parts

namespace Int256Parts

def schema : Schema Int256Parts :=
  (field "hi_hi" .i64 >> field "hi_lo" .u64 >> field "lo_hi" .u64 >> field "lo_lo" .u64).record
    (fun (hiHi, hiLo, loHi, loLo) => ⟨hiHi, hiLo, loHi, loLo⟩)
    fun p => (p.hiHi, p.hiLo, p.loHi, p.loLo)

end Int256Parts

end LedgerWire
