/-
# Schemas

A schema says both things there are to say about how values of a type leave the program: their
wire form and their JSON projection. Schemas of composite types are put together from the schemas
of their parts, which keeps the four directions in step.

* `Schema` — a codec and a projection.
* `Schema.recursive` — values that contain values of their own type. The layout of one level is
  given in terms of a schema for the levels below; reading takes as many levels as the reader has
  room for, and writing as many as the value has.
-/

import LedgerWire.Json.Form
import LedgerWire.Wire.Codec

namespace LedgerWire

/-- The wire form and the JSON projection of a type. -/
structure Schema (α : Type) where
  wire : Codec α
  json : Json.Form α

namespace Schema

variable {α β : Type}

/-! ### Single values -/

def u32 : Schema UInt32 := ⟨.u32, .u32⟩

def i32 : Schema Int32 := ⟨.i32, .i32⟩

def u64 : Schema UInt64 := ⟨.u64, .u64⟩

def i64 : Schema Int64 := ⟨.i64, .i64⟩

def bool : Schema Bool := ⟨.bool, .bool⟩

def unit : Schema Unit := ⟨.unit, .unit⟩

def text (max : UInt32) (kind field : String) : Schema String := ⟨.text max kind field, .string⟩

/-- A byte string of bounded length, shown as hexadecimal digits. -/
def bytes (max : UInt32) (kind field : String) : Schema Bytes := ⟨.bytes max kind field, .hex⟩

/-- A byte string of fixed length, shown as hexadecimal digits. -/
def fixed (n : Nat) : Schema (Vector UInt8 n) := ⟨.fixed n, .hexFixed n⟩

/-- A wire form whose values are shown through a text form of their own. -/
def shownAs {ε : Type} (shown : α → String) (parse : String → Except ε α) (message : ε → String)
    (wire : Codec α) : Schema α :=
  ⟨wire, .text shown parse message⟩

/-! ### Composite values -/

def imap (ofWire : α → β) (toWire : β → α) (s : Schema α) : Schema β :=
  ⟨s.wire.imap ofWire toWire, s.json.imap ofWire toWire⟩

/-- Values are validated before they are written. -/
def guarded (validate : α → Except WireError Unit) (s : Schema α) : Schema α :=
  ⟨s.wire.guarded validate, s.json⟩

def optional (s : Schema α) : Schema (Option α) := ⟨s.wire.optional, s.json.option⟩

/-- A value that may be absent, behind the discriminant of its version. -/
def extension (version : Int32) (kind : String) (s : Schema α) : Schema (Option α) :=
  ⟨s.wire.extension version kind, s.json.option⟩

def array (max : UInt32) (kind field : String) (s : Schema α) : Schema (List α) :=
  ⟨s.wire.array max kind field, s.json.list⟩

def two (s : Schema α) (t : Schema β) : Schema (α × β) :=
  ⟨s.wire.both t.wire, s.json.two t.json⟩

/-! ### Recursion -/

/-- The schema that has no levels left. -/
def exhausted : Schema α where
  wire :=
    { put := fun _ => Attempt.fail (.depthLimitExceeded 0)
      get := fun r => (.error (.depthLimitExceeded r.limit), r) }
  json :=
    { write := fun _ => .null
      read := fun _ _ => .error .shape }

/-- The schema of values with at most so many levels. -/
def levels (layout : Schema α → Schema α) : Nat → Schema α
  | 0 => exhausted
  | n + 1 =>
      { wire :=
          { put := fun a => (layout (levels layout n)).wire.put a
            get := fun r => (layout (levels layout n)).wire.get.nested r }
        json :=
          { write := fun a => (layout (levels layout n)).json.write a
            read := fun source j => (layout (levels layout n)).json.read source j } }

/-- The schema of a recursive type: `layout` describes one level over a schema for the levels
below, and `nesting` counts the levels of a value. -/
def recursive (nesting : α → Nat) (layout : Schema α → Schema α) : Schema α where
  wire :=
    { put := fun a => (levels layout (nesting a)).wire.put a
      get := fun r => (levels layout r.room).wire.get r }
  json :=
    { write := fun a => (levels layout (nesting a)).json.write a
      read := fun source j => (levels layout (j.depth + 1)).json.read source j }

end Schema

end LedgerWire
