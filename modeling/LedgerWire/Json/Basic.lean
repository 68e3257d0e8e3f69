/-
# JSON values

A JSON document as a tree. Numbers come in two kinds: integers that fit in 64 bits, signed or
unsigned, and everything else a JSON text may write (fractions, exponents, minus zero, larger
magnitudes), which is kept as it was written and is never an integer. Objects keep their members in
order, repeated names included. What is well written but stands for no value of these kinds is kept
as `unreadable`: it does no harm where nobody looks at it.

* `Json.depth` — how many containers enclose the deepest value.
* `Json.lastWins` — the document in which the last member of each name is the only one.
-/

namespace LedgerWire

/-- A JSON document. A text with an unpaired surrogate in it is `unreadable`, and so are an object
with such a name of a member, and a container that is nested too deep for its reader. -/
inductive Json where
  | null
  | bool (b : Bool)
  | int (n : Int)
  | real (text : String)
  | str (s : String)
  | arr (items : List Json)
  | obj (members : List (String × Json))
  | unreadable
  deriving Repr, Inhabited

namespace Json

/-- The integers that a number without a fraction or an exponent stands for. -/
def isInteger (n : Int) : Bool := -0x8000000000000000 ≤ n && n < 0x10000000000000000

/-! ### Depth -/

mutual

/-- How many arrays and objects enclose the deepest value, the document's own included. Nothing is
seen inside what is unreadable. -/
def depth : Json → Nat
  | .arr items => depthItems items + 1
  | .obj members => depthMembers members + 1
  | _ => 0

def depthItems : List Json → Nat
  | [] => 0
  | j :: rest => max (depth j) (depthItems rest)

def depthMembers : List (String × Json) → Nat
  | [] => 0
  | (_, j) :: rest => max (depth j) (depthMembers rest)

end

/-! ### Members -/

/-- Keeps of each name only its last member. -/
def dropEarlier : List (String × Json) → List (String × Json)
  | [] => []
  | (name, j) :: rest =>
      if rest.any (·.1 == name) then dropEarlier rest else (name, j) :: dropEarlier rest

mutual

/-- The document in which, all the way down, the last member of each name stands alone. -/
def lastWins : Json → Json
  | .arr items => .arr (lastWinsItems items)
  | .obj members => .obj (dropEarlier (lastWinsMembers members))
  | j => j

def lastWinsItems : List Json → List Json
  | [] => []
  | j :: rest => lastWins j :: lastWinsItems rest

def lastWinsMembers : List (String × Json) → List (String × Json)
  | [] => []
  | (name, j) :: rest => (name, lastWins j) :: lastWinsMembers rest

end

/-- The first member of that name. -/
def find? (name : String) : List (String × Json) → Option Json
  | [] => none
  | (n, j) :: rest => if n = name then some j else find? name rest

def get? (name : String) : Json → Option Json
  | .obj members => find? name members
  | _ => none

end Json

end LedgerWire
