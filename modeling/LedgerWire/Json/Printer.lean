/-
# Writing JSON

Two layouts of one document: on a single line without spaces, and over several lines with two
spaces of indentation for each enclosing container. Texts are escaped alike in both: the quote, the
backslash and the control characters, the common ones by a letter; everything else stands as it is.
What is unreadable is written as `null`.

* `Json.compact` — one line.
* `Json.pretty` — over lines; an empty container stays on one line.
-/

import LedgerWire.Json.Basic
import LedgerWire.Text.Quoted

namespace LedgerWire.Json

def escape (c : Char) : String :=
  match c with
  | '"' => "\\\""
  | '\\' => "\\\\"
  | '\n' => "\\n"
  | '\r' => "\\r"
  | '\t' => "\\t"
  | c =>
      if c.toNat = 8 then "\\b"
      else if c.toNat = 12 then "\\f"
      else if c.toNat < 0x20 then
        "\\u00" ++ (if c.toNat < 0x10 then "0" else "") ++ Text.hexNumeral c.toNat
      else String.singleton c

def quoted (s : String) : String := "\"" ++ String.join (s.toList.map escape) ++ "\""

/-! ### One line -/

mutual

/-- The document on one line. -/
def compact : Json → String
  | .null | .unreadable => "null"
  | .bool true => "true"
  | .bool false => "false"
  | .int n => toString n
  | .real text => text
  | .str s => quoted s
  | .arr items => "[" ++ ",".intercalate (compactItems items) ++ "]"
  | .obj members => "\x7b" ++ ",".intercalate (compactMembers members) ++ "\x7d"

def compactItems : List Json → List String
  | [] => []
  | j :: rest => compact j :: compactItems rest

def compactMembers : List (String × Json) → List String
  | [] => []
  | (name, j) :: rest => (quoted name ++ ":" ++ compact j) :: compactMembers rest

end

/-! ### Over lines -/

def newline (level : Nat) : String := "\n" ++ String.ofList (List.replicate (2 * level) ' ')

/-- Pieces between brackets, each on its own line one level further in. -/
def bracketed (opening closing : String) (level : Nat) : List String → String
  | [] => opening ++ closing
  | pieces =>
      opening ++ newline (level + 1) ++ ("," ++ newline (level + 1)).intercalate pieces
        ++ newline level ++ closing

mutual

/-- The document over lines, inside `level` containers. -/
def prettyAt (level : Nat) : Json → String
  | .arr items => bracketed "[" "]" level (prettyItems (level + 1) items)
  | .obj members => bracketed "\x7b" "\x7d" level (prettyMembers (level + 1) members)
  | .null | .unreadable => "null"
  | .bool true => "true"
  | .bool false => "false"
  | .int n => toString n
  | .real text => text
  | .str s => quoted s

def prettyItems (level : Nat) : List Json → List String
  | [] => []
  | j :: rest => prettyAt level j :: prettyItems level rest

def prettyMembers (level : Nat) : List (String × Json) → List String
  | [] => []
  | (name, j) :: rest => (quoted name ++ ": " ++ prettyAt level j) :: prettyMembers level rest

end

def pretty (j : Json) : String := prettyAt 0 j

end LedgerWire.Json
