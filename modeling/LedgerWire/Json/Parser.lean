/-
# Reading JSON

A strict reader of RFC 8259 documents: no comments, no trailing commas, no numbers with leading
zeros, no raw control characters in texts, nothing after the document but white space. What is well
written by these rules and still cannot be had as a value is read as `unreadable`: a text with an
unpaired surrogate, an object with such a name, a container that is nested deeper than the caller
allows.

* `Json.parse?` — the document of a text, under a bound on the nesting.
* `Json.skip?` — the text after a value, however deep its containers are nested.

A value takes at least one character, so a text's length bounds how often its reader calls itself.
-/

import LedgerWire.Json.Basic

namespace LedgerWire.Json

/-! ### Blanks and literals -/

/-- The four characters that may stand between tokens. -/
def isBlank (c : Char) : Bool := c = ' ' || c = '\n' || c = '\r' || c = '\t'

/-- The text from its first token on. -/
def skipBlanks (cs : List Char) : List Char := cs.dropWhile isBlank

/-- The text after a given word in front of it. -/
def afterWord? : (word cs : List Char) → Option (List Char)
  | [], cs => some cs
  | w :: word, c :: cs => if w = c then afterWord? word cs else none
  | _ :: _, [] => none

/-! ### Texts -/

def hexDigit? (c : Char) : Option Nat :=
  if c.isDigit then some (c.toNat - 48)
  else if 'a' ≤ c ∧ c ≤ 'f' then some (c.toNat - 87)
  else if 'A' ≤ c ∧ c ≤ 'F' then some (c.toNat - 55)
  else none

/-- The number of four hexadecimal digits in front, and the text after them. -/
def hexUnit? : List Char → Option (Nat × List Char)
  | a :: b :: c :: d :: rest => do
      let a ← hexDigit? a
      let b ← hexDigit? b
      let c ← hexDigit? c
      let d ← hexDigit? d
      return (((a * 16 + b) * 16 + c) * 16 + d, rest)
  | _ => none

/-- The character of a numbered escape, whose unit is given, and the text after it. A high surrogate
takes the low one that follows it; a surrogate that is not paired in this way is no character. -/
def unitChar (unit : Nat) (rest : List Char) : Option Char × List Char :=
  if unit < 0xD800 ∨ 0xE000 ≤ unit then (some (Char.ofNat unit), rest)
  else match (afterWord? ['\\', 'u'] rest).bind hexUnit? with
    | some (low, after) =>
        if unit < 0xDC00 ∧ 0xDC00 ≤ low ∧ low < 0xE000 then
          (some (Char.ofNat (0x10000 + (unit - 0xD800) * 0x400 + (low - 0xDC00))), after)
        else (none, rest)
    | none => (none, rest)

/-- The character that an escape spells, after its backslash, if it is a character. -/
def escaped? : List Char → Option (Option Char × List Char)
  | '"' :: rest => some ('"', rest)
  | '\\' :: rest => some ('\\', rest)
  | '/' :: rest => some ('/', rest)
  | 'b' :: rest => some (Char.ofNat 8, rest)
  | 'f' :: rest => some (Char.ofNat 12, rest)
  | 'n' :: rest => some ('\n', rest)
  | 'r' :: rest => some ('\r', rest)
  | 't' :: rest => some ('\t', rest)
  | 'u' :: rest => (hexUnit? rest).map fun (unit, rest) => unitChar unit rest
  | _ => none

/-- The characters of a text up to its closing quote, the opening one being read already. What was
read `before` is lost with the first escape that is no character. -/
def textBody? : (fuel : Nat) → (cs : List Char) → (before : Option (List Char)) →
    Option (Option (List Char) × List Char)
  | 0, _, _ => none
  | fuel + 1, cs, before =>
      match cs with
      | [] => none
      | '"' :: rest => some (before.map List.reverse, rest)
      | '\\' :: rest => do
          let (c, rest) ← escaped? rest
          textBody? fuel rest (do return (← c) :: (← before))
      | c :: rest =>
          if c.toNat < 0x20 then none else textBody? fuel rest (before.map (c :: ·))

/-- A text in front, from its opening quote on, unless it has an unpaired surrogate in it, and what
follows it. -/
def text? : List Char → Option (Option String × List Char)
  | '"' :: rest => (textBody? (rest.length + 1) rest (some [])).map fun (cs, rest) =>
      (cs.map String.ofList, rest)
  | _ => none

/-! ### Numbers -/

def ofDigits (digits : List Char) : Nat :=
  digits.foldl (fun n c => 10 * n + (c.toNat - 48)) 0

/-- The digits in front, at least one, and the text after them. -/
def digits? (cs : List Char) : Option (List Char × List Char) :=
  let digits := cs.takeWhile Char.isDigit
  if digits.isEmpty then none else some (digits, cs.dropWhile Char.isDigit)

def fraction? : List Char → Option (List Char × List Char)
  | '.' :: rest => (digits? rest).map fun (digits, rest) => ('.' :: digits, rest)
  | cs => some ([], cs)

def exponent? : List Char → Option (List Char × List Char)
  | c :: rest =>
      if c = 'e' ∨ c = 'E' then
        match rest with
        | s :: more =>
            if s = '+' ∨ s = '-' then
              (digits? more).map fun (digits, rest) => (c :: s :: digits, rest)
            else (digits? rest).map fun (digits, rest) => (c :: digits, rest)
        | [] => none
      else some ([], c :: rest)
  | [] => some ([], [])

/-- A number of known sign, after the sign. -/
def magnitude? (negative : Bool) (cs : List Char) : Option (Json × List Char) := do
  let (whole, rest) ← digits? cs
  if whole.length > 1 ∧ whole.head? = some '0' then none
  let (fraction, rest) ← fraction? rest
  let (exponent, rest) ← exponent? rest
  let n : Int := if negative then -(ofDigits whole) else ofDigits whole
  let isPlain := fraction.isEmpty && exponent.isEmpty && !(negative && n == 0)
  if isPlain && isInteger n then return (.int n, rest)
  let sign := if negative then ['-'] else []
  return (.real (String.ofList (sign ++ whole ++ fraction ++ exponent)), rest)

def number? : List Char → Option (Json × List Char)
  | '-' :: rest => magnitude? true rest
  | cs => magnitude? false cs

/-! ### Single values -/

/-- A value in front that is no container. -/
def single? : List Char → Option (Json × List Char)
  | '"' :: rest => (text? ('"' :: rest)).map fun (s, rest) => (s.elim .unreadable .str, rest)
  | 'n' :: rest => (afterWord? "ull".toList rest).map fun rest => (.null, rest)
  | 't' :: rest => (afterWord? "rue".toList rest).map fun rest => (.bool true, rest)
  | 'f' :: rest => (afterWord? "alse".toList rest).map fun rest => (.bool false, rest)
  | cs => number? cs

/-! ### Passing over values -/

/-- What a document may go on with: a value; the first item or member of a container, unless it has
none; the name of a member; or what comes after a value. -/
inductive Expected where
  | value
  | first
  | name
  | afterValue
  deriving DecidableEq, Repr

/-- What stands at each place of a container, which is known by its closing bracket. -/
def Expected.inside (closing : Char) : Expected := if closing = '\x7d' then .name else .value

/-- The text after all the containers that are open, each given by its closing bracket and the
innermost first. -/
def skipOpen? : (fuel : Nat) → Expected → (closings cs : List Char) → Option (List Char)
  | 0, _, _, _ => none
  | fuel + 1, expected, closings, cs =>
      match expected, closings, skipBlanks cs with
      | .value, _, '[' :: rest => skipOpen? fuel .first (']' :: closings) rest
      | .value, _, '\x7b' :: rest => skipOpen? fuel .first ('\x7d' :: closings) rest
      | .value, _, cs => do
          let (_, rest) ← single? cs
          skipOpen? fuel .afterValue closings rest
      | .name, _, cs => do
          let (_, rest) ← text? cs
          let rest ← afterWord? [':'] (skipBlanks rest)
          skipOpen? fuel .value closings rest
      | .first, closing :: outer, c :: rest =>
          if c = closing then skipOpen? fuel .afterValue outer rest
          else skipOpen? fuel (.inside closing) closings (c :: rest)
      | .afterValue, closing :: outer, c :: rest =>
          if c = closing then skipOpen? fuel .afterValue outer rest
          else if c = ',' then skipOpen? fuel (.inside closing) closings rest
          else none
      | .afterValue, [], _ => some cs
      | _, _, _ => none

/-- The text after the value in front, whose containers may nest to any depth. -/
def skip? (cs : List Char) : Option (List Char) := skipOpen? (2 * cs.length + 2) .value [] cs

/-! ### Values -/

/-- The object of some members, of which each must have a name that can be had. -/
def ofMembers (members : List (Option String × Json)) : Json :=
  match members.mapM fun (name, j) => name.map (·, j) with
  | some members => .obj members
  | none => .unreadable

mutual

/-- A value in front, in which containers may still nest `level` deep. -/
def value? : (fuel level : Nat) → List Char → Option (Json × List Char)
  | 0, _, _ => none
  | fuel + 1, level, cs =>
      match cs, level with
      | '[' :: _, 0 | '\x7b' :: _, 0 => (skip? cs).map fun rest => (.unreadable, rest)
      | '[' :: rest, level + 1 =>
          match skipBlanks rest with
          | ']' :: rest => some (.arr [], rest)
          | rest => (items? fuel level rest).map fun (items, rest) => (.arr items, rest)
      | '\x7b' :: rest, level + 1 =>
          match skipBlanks rest with
          | '\x7d' :: rest => some (.obj [], rest)
          | rest => (members? fuel level rest).map fun (members, rest) => (ofMembers members, rest)
      | cs, _ => single? cs

def items? : (fuel level : Nat) → List Char → Option (List Json × List Char)
  | 0, _, _ => none
  | fuel + 1, level, cs => do
      let (item, rest) ← value? fuel level cs
      match skipBlanks rest with
      | ',' :: rest => do
          let (items, rest) ← items? fuel level (skipBlanks rest)
          return (item :: items, rest)
      | ']' :: rest => return ([item], rest)
      | _ => none

def members? : (fuel level : Nat) → List Char → Option (List (Option String × Json) × List Char)
  | 0, _, _ => none
  | fuel + 1, level, cs => do
      let (name, rest) ← text? cs
      match skipBlanks rest with
      | ':' :: rest => do
          let (j, rest) ← value? fuel level (skipBlanks rest)
          match skipBlanks rest with
          | ',' :: rest => do
              let (members, rest) ← members? fuel level (skipBlanks rest)
              return ((name, j) :: members, rest)
          | '\x7d' :: rest => return ([(name, j)], rest)
          | _ => none
      | _ => none

end

/-- The document of a text; what nests deeper than `depth` in it is unreadable. -/
def parse? (s : String) (depth : Nat) : Option Json :=
  let cs := s.toList
  match value? (2 * cs.length + 1) depth (skipBlanks cs) with
  | some (j, rest) => if (skipBlanks rest).isEmpty then some j else none
  | none => none

end LedgerWire.Json
