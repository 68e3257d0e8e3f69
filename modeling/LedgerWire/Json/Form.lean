/-
# JSON projections

How values of a type are shown as JSON, and which JSON is accepted for them. A document can be
refused for its shape (a missing member, the wrong kind of value, an integer out of range, an
unknown name) or because a text inside it is refused by the reader of that text, whose sentence is
then passed on.

* `Json.Form` — the two directions of a projection.
* `Json.Source` — where a document is read, which matters for one rule about unions.
* `Json.Form.text` — values shown through a text form of their own.
* `Json.Form.option` — `null` for an absent value; a record may leave such a member out.
-/

import LedgerWire.Bytes
import LedgerWire.Json.Basic
import LedgerWire.Text.Hex

namespace LedgerWire.Json

/-- Why a document is not a value of a type. -/
inductive Fault where
  | shape
  | text (message : String)
  deriving DecidableEq, Repr

/-- Where a document is read: as a tree that is at hand in whole, or in the text that writes it. In
a text the fields of a union's arm may also stand in an array. -/
inductive Source where
  | tree
  | text
  deriving DecidableEq, Repr

/-- How values are shown as JSON and read back. `absent` is the value of a record's member that is
missing, for types that allow it. -/
structure Form (α : Type) where
  write : α → Json
  read : Source → Json → Except Fault α
  absent : Option α := none

namespace Form

variable {α β : Type}

def imap (ofForm : α → β) (toForm : β → α) (f : Form α) : Form β where
  write b := f.write (toForm b)
  read source j := (f.read source j).map ofForm
  absent := f.absent.map ofForm

/-! ### Single values -/

/-- Only `null`. -/
def unit : Form Unit where
  write _ := .null
  read
    | _, .null => .ok ()
    | _, _ => .error .shape

def bool : Form Bool where
  write := .bool
  read
    | _, .bool b => .ok b
    | _, _ => .error .shape

/-- The integers of a range that starts at `low` and ends before `high`. -/
def integer (low high : Int) : Form Int where
  write := .int
  read
    | _, .int n => if low ≤ n ∧ n < high then .ok n else .error .shape
    | _, _ => .error .shape

def u8 : Form UInt8 :=
  (integer 0 0x100).imap (fun n : Int => UInt8.ofNat n.toNat) fun n => (n.toNat : Int)

def u32 : Form UInt32 :=
  (integer 0 0x100000000).imap (fun n : Int => UInt32.ofNat n.toNat) fun n => (n.toNat : Int)

def i32 : Form Int32 := (integer (-0x80000000) 0x80000000).imap Int32.ofInt Int32.toInt

def u64 : Form UInt64 :=
  (integer 0 0x10000000000000000).imap (fun n : Int => UInt64.ofNat n.toNat)
    fun n => (n.toNat : Int)

def i64 : Form Int64 :=
  (integer (-0x8000000000000000) 0x8000000000000000).imap Int64.ofInt Int64.toInt

def string : Form String where
  write := .str
  read
    | _, .str s => .ok s
    | _, _ => .error .shape

/-- Values shown through a text form; the reader's fault is passed on as its sentence. -/
def text {ε : Type} (shown : α → String) (parse : String → Except ε α) (message : ε → String) :
    Form α where
  write a := .str (shown a)
  read
    | _, .str s =>
        match parse s with
        | .ok a => .ok a
        | .error e => .error (.text (message e))
    | _, _ => .error .shape

def hex : Form Bytes := text Hex.encode Hex.decode HexError.message

def hexFixed (n : Nat) : Form (Vector UInt8 n) :=
  text (fun v => Hex.encode v.toList) (Hex.decodeFixed n) HexError.message

/-! ### Several values -/

/-- `null`, or a value. -/
def option (f : Form α) : Form (Option α) where
  write
    | none => .null
    | some a => f.write a
  read
    | _, .null => .ok none
    | source, j => (f.read source j).map some
  absent := some none

def readItems (f : Form α) (source : Source) : List Json → Except Fault (List α)
  | [] => .ok []
  | j :: rest => do
      let a ← f.read source j
      return a :: (← readItems f source rest)

def list (f : Form α) : Form (List α) where
  write items := .arr (items.map f.write)
  read
    | source, .arr items => readItems f source items
    | _, _ => .error .shape

def two (f : Form α) (g : Form β) : Form (α × β) where
  write := fun (a, b) => .arr [f.write a, g.write b]
  read
    | source, .arr [a, b] => do return (← f.read source a, ← g.read source b)
    | _, _ => .error .shape

/-- A value that is shown nowhere, and that no document is read as. -/
def refused : Form Empty := ⟨nofun, fun _ _ => .error .shape, none⟩

end Form

end LedgerWire.Json
