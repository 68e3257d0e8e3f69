/-
# Codecs

A codec pairs the two directions of one wire form. Codecs of records, unions and lists are put
together from the codecs of their parts, so the directions of a type cannot drift apart.

* `Codec` — how a value is written and read.
* `Codec.encode`, `Codec.decode` — between a value and a whole byte string.
* `Codec.toBase64`, `Codec.ofBase64` — the same through base 64.
* `Codec.union` — a discriminant and, after it, the payload of the arm that it selects.
* `Codec.guarded` — values are validated before they are written, and not when they are read.
-/

import LedgerWire.Text.Base64
import LedgerWire.Text.Blank
import LedgerWire.Wire.Writer

namespace LedgerWire

/-- The two directions of a wire form. -/
structure Codec (α : Type) where
  put : α → Put
  get : Get α

namespace Codec

variable {α β : Type}

/-! ### Whole byte strings -/

/-- The wire form of a value. -/
def encode (c : Codec α) (a : α) : Except WireError Bytes :=
  match c.put a .empty with
  | (.ok (), w) => .ok w.toList
  | (.error e, _) => .error e

/-- The value whose wire form is the whole byte string. -/
def decode (c : Codec α) (bytes : Bytes) (limit : Nat := Reader.defaultLimit) :
    Except WireError α :=
  ((do
    let a ← c.get
    Get.finish
    return a : Get α) (Reader.start bytes limit)).1

def toBase64 (c : Codec α) (a : α) : Except WireError String :=
  (c.encode a).map Base64.encode

/-- The value whose wire form is given in base 64, white space around it aside. -/
def ofBase64 (c : Codec α) (s : String) : Except WireError α :=
  match Base64.decode? (Text.trim s) with
  | some bytes => c.decode bytes
  | none => .error .base64

/-! ### Words and byte strings -/

def u32 : Codec UInt32 := ⟨Put.u32, Get.u32⟩

def i32 : Codec Int32 := ⟨Put.i32, Get.i32⟩

def u64 : Codec UInt64 := ⟨Put.u64, Get.u64⟩

def i64 : Codec Int64 := ⟨Put.i64, Get.i64⟩

def bool : Codec Bool := ⟨Put.bool, Get.bool⟩

def unit : Codec Unit := ⟨fun _ => Attempt.ok (), Attempt.ok ()⟩

def fixed (n : Nat) : Codec (Vector UInt8 n) := ⟨fun v => Put.padded v.toList, Get.fixed n⟩

def bytes (max : UInt32) (kind field : String) : Codec Bytes :=
  ⟨Put.bytes max field, Get.bytes max kind⟩

/-! ### Parts put together -/

def both (c : Codec α) (d : Codec β) : Codec (α × β) where
  put := fun (a, b) => do
    c.put a
    d.put b
  get := do
    let a ← c.get
    let b ← d.get
    return (a, b)

/-- The same wire form for another view of the values. Not every value read need have the view. -/
def convert (ofWire : α → Except WireError β) (toWire : β → α) (c : Codec α) : Codec β where
  put b := c.put (toWire b)
  get := do
    let a ← c.get
    Attempt.ofExcept (ofWire a)

/-- The same wire form for an equivalent view of the values. -/
def imap (ofWire : α → β) (toWire : β → α) (c : Codec α) : Codec β where
  put b := c.put (toWire b)
  get := do
    let a ← c.get
    return ofWire a

/-- Values are validated before they are written, and not when they are read. -/
def guarded (validate : α → Except WireError Unit) (c : Codec α) : Codec α where
  put a := do
    Attempt.ofExcept (validate a)
    c.put a
  get := c.get

/-- Values are read one level further in. -/
def nested (c : Codec α) : Codec α := ⟨c.put, c.get.nested⟩

def optional (c : Codec α) : Codec (Option α) := ⟨Put.optional c.put, c.get.optional⟩

/-- A value that may be absent, behind the discriminant of its version. -/
def extension (version : Int32) (kind : String) (c : Codec α) : Codec (Option α) :=
  ⟨Put.extension version c.put, c.get.extension version kind⟩

def array (max : UInt32) (kind field : String) (c : Codec α) : Codec (List α) :=
  ⟨Put.array max field c.put, c.get.array max kind⟩

def text (max : UInt32) (kind field : String) : Codec String :=
  (bytes max kind field).convert
    (fun b => match Bytes.toText? b with
      | some s => .ok s
      | none => .error (.malformed kind .notUtf8))
    Bytes.ofString

/-! ### Unions -/

/-- One arm of a union: the discriminant that selects it, and its payload. -/
structure Arm (α : Type) where
  tag : Int32
  Payload : Type
  codec : Codec Payload
  inject : Payload → α
  project : α → Option Payload

def Arm.of (tag : Int32) (codec : Codec β) (inject : β → α) (project : α → Option β) : Arm α :=
  ⟨tag, β, codec, inject, project⟩

/-- Writes a value if it belongs to the arm. -/
def Arm.put? (arm : Arm α) (a : α) : Option Put :=
  (arm.project a).map fun payload => do
    Put.i32 arm.tag
    arm.codec.put payload

/-- Reads a value of the arm, after its discriminant. -/
def Arm.get (arm : Arm α) : Get α := do
  return arm.inject (← arm.codec.get)

/-- A value behind the discriminant of the arm it belongs to. -/
def union (kind : String) (arms : List (Arm α)) : Codec α where
  put a := (arms.findSome? (·.put? a)).getD (Attempt.ok ())
  get := do
    let tag ← Get.i32
    match arms.find? (·.tag = tag) with
    | some arm => arm.get
    | none => Attempt.fail (.unknownVariant kind tag)

/-- A payload that no value has: reading it fails. -/
def refused (e : WireError) : Codec Empty := ⟨nofun, Attempt.fail e⟩

end Codec

end LedgerWire
