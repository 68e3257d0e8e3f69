/-
# Programs of reading and writing

A program is a list of steps that are taken on one reader or one writer, one after the other,
whatever comes of each. What a step reads or writes is a word, a byte string, or a value of a type
of ledger data.

* `Item` — what one step reads or writes; `Item.Value` are its values.
* `ReadStep`, `WriteStep` — the steps; `WriteStep.reading` is the step that reads what one wrote.
* `ReadStep.trace`, `WriteStep.trace` — the results of a program, each with the state after it.
-/

import LedgerWire.DataType

namespace LedgerWire

/-! ### What steps are about -/

/-- What one step reads or writes. -/
inductive Item : Type 1 where
  | u32
  | i32
  | u64
  | i64
  | bool
  | fixed (n : Nat)
  | bytes (max : UInt32) (kind field : String)
  | text (max : UInt32) (kind field : String)
  | one (t : DataType)
  | optional (t : DataType)
  | array (t : DataType) (max : UInt32) (kind field : String)
  | extension (t : DataType) (version : Int32) (kind : String)

namespace Item

def Value : Item → Type
  | .u32 => UInt32
  | .i32 => Int32
  | .u64 => UInt64
  | .i64 => Int64
  | .bool => Bool
  | .fixed n => Vector UInt8 n
  | .bytes _ _ _ => Bytes
  | .text _ _ _ => String
  | .one t => t.Value
  | .optional t => Option t.Value
  | .array t _ _ _ => List t.Value
  | .extension t _ _ => Option t.Value

/-- How the values are written, read and shown. -/
def schema : (i : Item) → Schema i.Value
  | .u32 => .u32
  | .i32 => .i32
  | .u64 => .u64
  | .i64 => .i64
  | .bool => .bool
  | .fixed n => .fixed n
  | .bytes max kind field => .bytes max kind field
  | .text max kind field => .text max kind field
  | .one t => t.schema
  | .optional t => .optional t.schema
  | .array t max kind field => .array max kind field t.schema
  | .extension t version kind => .extension version kind t.schema

end Item

/-! ### Reading -/

/-- A step of reading: an item, the end of the input, or several steps one level further in. -/
inductive ReadStep : Type 1 where
  | item (i : Item)
  | finish
  | nested (steps : List ReadStep)

namespace ReadStep

mutual

/-- What a step gives. -/
def Outcome : ReadStep → Type
  | .item i => i.Value
  | .finish => Unit
  | .nested steps => Outcomes steps

def Outcomes : List ReadStep → Type
  | [] => Unit
  | s :: rest => Outcome s × Outcomes rest

end

mutual

def run : (s : ReadStep) → Get s.Outcome
  | .item i => i.schema.wire.get
  | .finish => Get.finish
  | .nested steps => Get.nested (runAll steps)

/-- Takes several steps; the first that fails ends them. -/
def runAll : (steps : List ReadStep) → Get (Outcomes steps)
  | [] => Attempt.ok ()
  | s :: rest => (run s).andThen fun a => (runAll rest).andThen fun b => Attempt.ok (a, b)

end

mutual

def json : (s : ReadStep) → s.Outcome → Json
  | .item i, v => i.schema.json.write v
  | .finish, _ => .null
  | .nested steps, vs => .arr (jsonAll steps vs)

def jsonAll : (steps : List ReadStep) → Outcomes steps → List Json
  | [], _ => []
  | s :: rest, (a, b) => json s a :: jsonAll rest b

end

/-- A step, what came of it, and the reader afterwards. -/
structure Result : Type 1 where
  step : ReadStep
  outcome : Except WireError step.Outcome
  reader : Reader

/-- Takes the steps of a program on one reader; a step that fails does not end it. -/
def trace : List ReadStep → Reader → List Result
  | [], _ => []
  | s :: rest, r =>
      let (outcome, r') := s.run r
      ⟨s, outcome, r'⟩ :: trace rest r'

end ReadStep

/-! ### Writing -/

/-- A step of writing: an item and the value to write. -/
structure WriteStep : Type 1 where
  item : Item
  value : item.Value

namespace WriteStep

def run (s : WriteStep) : Put := s.item.schema.wire.put s.value

/-- The step that reads what this one writes. -/
def reading (s : WriteStep) : ReadStep := .item s.item

/-- What came of a step, and the writer afterwards. -/
structure Result where
  outcome : Except WireError Unit
  writer : Writer

/-- Takes the steps of a program on one writer; a step that fails does not end it. -/
def trace : List WriteStep → Writer → List Result
  | [], _ => []
  | s :: rest, w =>
      let (outcome, w') := s.run w
      ⟨outcome, w'⟩ :: trace rest w'

def writer (steps : List WriteStep) : Writer :=
  steps.foldl (fun w s => (s.run w).2) .empty

end WriteStep

end LedgerWire
