/-
# Reading the wire form

A reader holds the bytes that are still unread, and counts how many recursive values it is inside
of. Reading is strict: numbers are big-endian and of fixed width, truth values are the words 0 and
1, every byte string is filled up to a multiple of four bytes with zeros, and lengths are judged
before anything is read for them.

* `Reader` — the state, with the bound on nesting that it keeps.
* `Get` — a step of reading; what it consumed before a fault stays consumed.
* `Get.nested` — a step one level further in, refused when the bound is reached.
* `Get.finish` — nothing may be left.
-/

import LedgerWire.Wire.Attempt

namespace LedgerWire

/-- The bytes still unread, the number of recursive values being read, and its bound. -/
structure Reader where
  unread : Bytes
  depth : Nat
  limit : Nat
  deriving DecidableEq, Repr

namespace Reader

/-- The nesting that a reader allows when nobody says otherwise. -/
def defaultLimit : Nat := 500

def start (bytes : Bytes) (limit : Nat := defaultLimit) : Reader := ⟨bytes, 0, limit⟩

/-- How many recursive values may still be entered. -/
def room (r : Reader) : Nat := r.limit - r.depth

end Reader

/-- A step of reading. -/
abbrev Get (α : Type) : Type := Attempt Reader α

/-- How many zero bytes fill up `length` bytes to a multiple of four. -/
def paddingFor (length : Nat) : Nat := (4 - length % 4) % 4

namespace Get

/-! ### Bytes and numbers -/

/-- Fails, without moving, unless so many bytes are left. -/
def need (n : Nat) : Get Unit := fun r =>
  if Bytes.hasAtLeast n r.unread then (.ok (), r)
  else (.error (.unexpectedEnd n r.unread.length), r)

/-- The next `n` bytes; on a shorter input nothing moves. -/
def take (n : Nat) : Get (Vector UInt8 n) := fun r =>
  match Bytes.cut? n r.unread with
  | some (front, rest) => (.ok front, { r with unread := rest })
  | none => (.error (.unexpectedEnd n r.unread.length), r)

/-- The number that the next `width` bytes spell. -/
def number (width : Nat) : Get Nat := do
  return Bytes.toNat (← take width).toList

def u32 : Get UInt32 := do return UInt32.ofNat (← number 4)

def i32 : Get Int32 := do return (← u32).toInt32

def u64 : Get UInt64 := do return UInt64.ofNat (← number 8)

def i64 : Get Int64 := do return (← u64).toInt64

def bool : Get Bool := do
  let word ← u32
  if word = 0 then return false
  if word = 1 then return true
  Attempt.fail (.malformed "bool" (.notBoolean word.toNat))

/-- Fails unless the whole input is consumed. -/
def finish : Get Unit := fun r =>
  match r.unread with
  | [] => (.ok (), r)
  | _ :: _ => (.error (.trailingBytes r.unread.length), r)

/-! ### Byte strings -/

/-- The zeros behind a byte string of that length. They are looked at before they are consumed. -/
def padding (length : Nat) : Get Unit := fun r =>
  match Bytes.cut? (paddingFor length) r.unread with
  | none => (.error (.unexpectedEnd (paddingFor length) r.unread.length), r)
  | some (zeros, rest) =>
      if zeros.toList.all (· == 0) then (.ok (), { r with unread := rest })
      else (.error (.malformed "opaque" .padding), r)

def fixed (n : Nat) : Get (Vector UInt8 n) := do
  let bytes ← take n
  padding n
  return bytes

/-- A byte string behind its length, which may be `max` at most, and its padding. -/
def bytes (max : UInt32) (kind : String) : Get Bytes := do
  let length ← u32
  if max < length then
    Attempt.fail (.malformed kind (.lengthAbove length.toNat max.toNat))
  return (← fixed length.toNat).toList

/-! ### Composite values -/

/-- Nothing behind the word 0, and a value behind the word 1. -/
def optional {α : Type} (value : Get α) : Get (Option α) := do
  if ← bool then return some (← value) else return none

def times {α : Type} (value : Get α) : Nat → Get (List α)
  | 0 => return []
  | n + 1 => do
      let first ← value
      let others ← times value n
      return first :: others

/-- Values behind their number, which may be `max` at most. No value takes fewer than four bytes,
so a number that the input cannot hold is refused before the first value is read. -/
def array {α : Type} (max : UInt32) (kind : String) (value : Get α) : Get (List α) := do
  let count ← u32
  if max < count then
    Attempt.fail (.malformed kind (.countAbove count.toNat max.toNat))
  need (4 * count.toNat)
  times value count.toNat

/-- An extension slot: nothing behind the word 0, and a value behind the word `version`. -/
def extension {α : Type} (version : Int32) (kind : String) (value : Get α) : Get (Option α) := do
  let word ← i32
  if word = 0 then return none
  if word = version then return some (← value)
  Attempt.fail (.unknownVariant kind word)

/-- A step one level further in. The level is left again whether or not the step succeeds. -/
def nested {α : Type} (value : Get α) : Get α := fun r =>
  if r.limit ≤ r.depth then (.error (.depthLimitExceeded r.limit), r)
  else
    let (result, r') := value { r with depth := r.depth + 1 }
    (result, { r' with depth := r'.depth - 1 })

end Get

end LedgerWire
