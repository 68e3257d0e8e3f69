/-
# Records in JSON

A record is shown as an object with its fields as members, in order. Reading ignores members that
no field names, takes a missing member for an absent value where the field allows that, and also
accepts the fields' values in an array. The fields of a union's arm, where they are no record of
their own, are shown in the same way; an array of their values is accepted in a text only.

* `Json.Members` — some consecutive members; `member` is one of them, `both` puts more behind it.
* `Json.Members.object` — the projection of the record that the members make up.
* `Json.Members.inArm` — the projection of an arm's fields.
-/

import LedgerWire.Json.Form

namespace LedgerWire.Json

/-- Consecutive members of an object, as the tuple of their values. -/
structure Members (α : Type) where
  write : α → List (String × Json)
  ofMembers : Source → List (String × Json) → Except Fault α
  ofItems : Source → List Json → Except Fault (α × List Json)

namespace Members

variable {α β : Type}

/-- The value of the one member of that name, if a member has it; two of one name are refused. -/
def only? (name : String) (members : List (String × Json)) : Except Fault (Option Json) :=
  match members.filter (·.1 == name) with
  | [] => .ok none
  | [(_, j)] => .ok (some j)
  | _ => .error .shape

def member (name : String) (f : Form α) : Members α where
  write a := [(name, f.write a)]
  ofMembers source members := do
    match ← only? name members with
    | some j => f.read source j
    | none =>
        match f.absent with
        | some a => return a
        | none => throw .shape
  ofItems
    | _, [] => .error .shape
    | source, j :: rest => do return (← f.read source j, rest)

/-- A member that is left out of the object when its value is absent. -/
def omitted (name : String) (f : Form α) : Members (Option α) where
  write
    | none => []
    | some a => [(name, f.write a)]
  ofMembers source members := do
    match ← only? name members with
    | some j => f.option.read source j
    | none => return none
  ofItems
    | _, [] => .ok (none, [])
    | source, j :: rest => do return (← f.option.read source j, rest)

def both (first : Members α) (others : Members β) : Members (α × β) where
  write := fun (a, b) => first.write a ++ others.write b
  ofMembers source members := do
    return (← first.ofMembers source members, ← others.ofMembers source members)
  ofItems source items := do
    let (a, rest) ← first.ofItems source items
    let (b, rest) ← others.ofItems source rest
    return ((a, b), rest)

/-- The record that the members make up, given its view as the tuple of their values. -/
def object (ofTuple : α → β) (toTuple : β → α) (m : Members α) : Form β where
  write b := .obj (m.write (toTuple b))
  read
    | source, .obj members => (m.ofMembers source members).map ofTuple
    | source, .arr items =>
        match m.ofItems source items with
        | .ok (a, []) => .ok (ofTuple a)
        | .ok (_, _ :: _) => .error .shape
        | .error e => .error e
    | _, _ => .error .shape

/-- The fields of an arm that are no record of their own, as the tuple of their values. They are
read as a record's are, except that in a tree they must be members. -/
def inArm (m : Members α) : Form α where
  write a := .obj (m.write a)
  read
    | .tree, .arr _ => .error .shape
    | source, j => (m.object id id).read source j

end Members

end LedgerWire.Json
