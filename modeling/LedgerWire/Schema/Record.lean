/-
# Records

A record's fields stand on the wire one after the other, and in JSON as the members of an object in
the same order.

* `Schema.Fields` — some consecutive fields; `field` is one of them, and `>>` puts more behind it.
* `Schema.Fields.record` — the record that the fields make up.
* `Schema.Fields.inArm` — the payload of a union's arm that is no record of its own.
-/

import LedgerWire.Json.Members
import LedgerWire.Schema.Basic

namespace LedgerWire.Schema

/-- Consecutive fields of a record, as the tuple of their values. -/
structure Fields (α : Type) where
  wire : Codec α
  members : Json.Members α

variable {α β : Type}

def field (name : String) (s : Schema α) : Fields α := ⟨s.wire, .member name s.json⟩

/-- A field that may be absent, and is then left out of the JSON object. -/
def omittedField (name : String) (s : Schema α) : Fields (Option α) :=
  ⟨s.wire.optional, .omitted name s.json⟩

namespace Fields

def both (first : Fields α) (others : Fields β) : Fields (α × β) :=
  ⟨first.wire.both others.wire, first.members.both others.members⟩

instance : HAndThen (Fields α) (Fields β) (Fields (α × β)) where
  hAndThen first others := first.both (others ())

/-- The record that the fields make up, given its view as the tuple of their values. -/
def record (ofTuple : α → β) (toTuple : β → α) (fields : Fields α) : Schema β :=
  ⟨fields.wire.imap ofTuple toTuple, fields.members.object ofTuple toTuple⟩

/-- The fields of a union's arm, as the tuple of their values. -/
def inArm (fields : Fields α) : Schema α := ⟨fields.wire, fields.members.inArm⟩

end Fields

end LedgerWire.Schema
