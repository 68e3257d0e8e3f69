/-
# Writing the wire form

A writer collects bytes; it never takes any back. Bounds are judged before the first byte of a
bounded value goes out, so a value over its bound leaves no trace.

* `Writer` — the bytes written so far.
* `Put` — a step of writing; what it wrote before a fault stays written.
-/

import LedgerWire.Wire.Reader

namespace LedgerWire

structure Writer where
  content : Array UInt8
  deriving DecidableEq, Repr

namespace Writer

def empty : Writer := ⟨#[]⟩

def toList (w : Writer) : Bytes := w.content.toList

def size (w : Writer) : Nat := w.content.size

end Writer

/-- A step of writing. -/
abbrev Put : Type := Attempt Writer Unit

namespace Put

def raw (bytes : Bytes) : Put := fun w => (.ok (), ⟨w.content ++ bytes⟩)

def u32 (n : UInt32) : Put := raw (Bytes.bigEndian 4 n.toNat)

def i32 (n : Int32) : Put := u32 n.toUInt32

def u64 (n : UInt64) : Put := raw (Bytes.bigEndian 8 n.toNat)

def i64 (n : Int64) : Put := u64 n.toUInt64

def bool (b : Bool) : Put := u32 (if b then 1 else 0)

/-- A byte string and its padding. -/
def padded (bytes : Bytes) : Put := do
  raw bytes
  raw (List.replicate (paddingFor bytes.length) 0)

/-- Fails, without writing, when a length is above its bound. -/
def checkLength (length : Nat) (max : UInt32) (field : String) : Put :=
  if length ≤ max.toNat then Attempt.ok ()
  else Attempt.fail (.validation field (.lengthAbove length max.toNat))

/-- A byte string of at most `max` bytes behind its length, and its padding. -/
def bytes (max : UInt32) (field : String) (b : Bytes) : Put := do
  checkLength b.length max field
  u32 (UInt32.ofNat b.length)
  padded b

/-- Nothing behind the word 0, or a value behind the word 1. -/
def optional {α : Type} (value : α → Put) : Option α → Put
  | none => bool false
  | some a => do
      bool true
      value a

def all {α : Type} (value : α → Put) : List α → Put
  | [] => Attempt.ok ()
  | a :: rest => do
      value a
      all value rest

/-- At most `max` values behind their number. -/
def array {α : Type} (max : UInt32) (field : String) (value : α → Put) (items : List α) : Put := do
  checkLength items.length max field
  u32 (UInt32.ofNat items.length)
  all value items

/-- An extension slot: the word 0 alone, or the word `version` and a value. -/
def extension {α : Type} (version : Int32) (value : α → Put) : Option α → Put
  | none => i32 0
  | some a => do
      i32 version
      value a

end Put

end LedgerWire
