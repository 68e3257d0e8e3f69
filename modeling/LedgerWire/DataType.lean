/-
# Types of ledger data

A type of ledger data as a value: its name in the format, and how its values are written and read.

* `DataType` — a type with its schema; values of a type can be told apart.
-/

import LedgerWire.Schema.Basic

namespace LedgerWire

structure DataType : Type 1 where
  name : String
  Value : Type
  [decEq : DecidableEq Value]
  schema : Schema Value

instance (t : DataType) : DecidableEq t.Value := t.decEq

namespace DataType

def encode (t : DataType) (v : t.Value) : Except WireError Bytes := t.schema.wire.encode v

/-- The value whose wire form is the whole byte string. -/
def decode (t : DataType) (bytes : Bytes) : Except WireError t.Value := t.schema.wire.decode bytes

def toBase64 (t : DataType) (v : t.Value) : Except WireError String := t.schema.wire.toBase64 v

def ofBase64 (t : DataType) (s : String) : Except WireError t.Value := t.schema.wire.ofBase64 s

def toJson (t : DataType) (v : t.Value) : Json := t.schema.json.write v

def ofJson (t : DataType) (source : Json.Source) (j : Json) : Except Json.Fault t.Value :=
  t.schema.json.read source j

end DataType

end LedgerWire
