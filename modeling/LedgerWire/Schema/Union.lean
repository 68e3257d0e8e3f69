/-
# Unions and enumerations

A union's value stands on the wire as a discriminant and the payload of the arm that it selects. In
JSON an arm without payload is the text of its name, and an arm with one is an object whose single
member has that name.

* `Schema.Arm` — one arm, with its discriminant and its name.
* `Schema.union` — the union of its arms.
* `Schema.reserved` — a union that has no arm with a payload yet.
* `Enumeration` — a union without payloads, as a table.
-/

import LedgerWire.Schema.Basic

namespace LedgerWire.Schema

/-- One arm of a union: the discriminant and the name that select it, and its payload. A bare arm
has nothing to show but its name. -/
structure Arm (α : Type) where
  tag : Int32
  name : String
  isBare : Bool
  Payload : Type
  schema : Schema Payload
  inject : Payload → α
  project : α → Option Payload

variable {α β : Type}

def Arm.of (tag : Int32) (name : String) (schema : Schema β) (inject : β → α)
    (project : α → Option β) : Arm α :=
  ⟨tag, name, false, β, schema, inject, project⟩

/-- An arm without payload, which holds the values that pass the test. -/
def Arm.bare (tag : Int32) (name : String) (value : α) (holds : α → Bool) : Arm α :=
  ⟨tag, name, true, Unit, unit, fun _ => value, fun a => if holds a then some () else none⟩

/-- An arm that no value belongs to any more: its discriminant is known, and refused. -/
def Arm.retired (tag : Int32) (what : String) : Arm α :=
  ⟨tag, "", false, Empty, ⟨.refused (.unsupported what), .refused⟩, nofun, fun _ => none⟩

namespace Arm

def wire (a : Arm α) : Codec.Arm α := ⟨a.tag, a.Payload, a.schema.wire, a.inject, a.project⟩

/-- The JSON of a value, if it belongs to the arm. -/
def write? (a : Arm α) (v : α) : Option Json :=
  (a.project v).map fun payload =>
    if a.isBare then .str a.name else .obj [(a.name, a.schema.json.write payload)]

def read (a : Arm α) (source : Json.Source) (j : Json) : Except Json.Fault α :=
  (a.schema.json.read source j).map a.inject

end Arm

/-- The JSON projection of a union: an arm's name, alone or as the name of its payload. -/
def unionJson (arms : List (Arm α)) : Json.Form α where
  write v := (arms.findSome? (·.write? v)).getD .null
  read
    | source, .str name =>
        match arms.find? fun a => a.isBare && a.name == name with
        | some a => a.read source .null
        | none => .error .shape
    | source, .obj [(name, j)] =>
        match arms.find? (·.name == name) with
        | some a => a.read source j
        | none => .error .shape
    | _, _ => .error .shape

/-- The union of the arms; `kind` is what an unknown discriminant is reported for. -/
def union (kind : String) (arms : List (Arm α)) : Schema α :=
  ⟨.union kind (arms.map Arm.wire), unionJson arms⟩

/-- Values of the one arm that a union has; the discriminant is not shown in JSON. -/
def behind (kind : String) (tag : Int32) (s : Schema α) : Schema α :=
  ⟨.union kind [.of tag s.wire id some], s.json⟩

/-- A slot kept free for later versions of the format, of which there are none yet: the word 0 on
the wire, and `null` in JSON. -/
def reserved : Schema Unit := behind "ExtensionPoint" 0 unit

end LedgerWire.Schema

namespace LedgerWire

/-! ### Enumerations -/

/-- A type without payloads: its name, its values in order, and their numbers and names. -/
structure Enumeration (α : Type) where
  kind : String
  all : List α
  number : α → Int32
  name : α → String

namespace Enumeration

/-- The enumeration of a table of names, numbers and values. -/
def ofTable {α : Type} [DecidableEq α] (kind : String) (table : List (String × Int32 × α)) :
    Enumeration α where
  kind := kind
  all := table.map fun (_, _, a) => a
  number a := ((table.find? fun (_, _, b) => b = a).map fun (_, n, _) => n).getD 0
  name a := ((table.find? fun (_, _, b) => b = a).map fun (name, _, _) => name).getD ""

variable {α : Type} (e : Enumeration α)

def ofNumber? (n : Int32) : Option α := e.all.find? fun a => e.number a = n

def ofName? (name : String) : Option α := e.all.find? fun a => e.name a = name

def wire : Codec α where
  put a := Put.i32 (e.number a)
  get := do
    let n ← Get.i32
    match e.ofNumber? n with
    | some a => return a
    | none => Attempt.fail (.unknownVariant e.kind n)

/-- In JSON the name, which may also be the only member of an object and hold `null`. -/
def json : Json.Form α where
  write a := .str (e.name a)
  read _ j :=
    let named (name : String) : Except Json.Fault α :=
      match e.ofName? name with
      | some a => .ok a
      | none => .error .shape
    match j with
    | .str name => named name
    | .obj [(name, .null)] => named name
    | _ => .error .shape

def schema : Schema α := ⟨e.wire, e.json⟩

end Enumeration

end LedgerWire
