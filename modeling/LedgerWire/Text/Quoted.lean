/-
# Characters and texts in quotes

How a message shows a character or a text that came from outside: between quotes, with the few
characters that would mislead the reader spelled out. Tab, line feed, carriage return, NUL, the
backslash and the enclosing quote get a backslash form; a character that is markless, combining or
not assigned is written by its code point in lower-case hexadecimal; every other character stands
for itself.

* `quoteChar` — a character between single quotes.
* `quoteString` — a text between double quotes.
-/

import LedgerWire.Text.Visibility

namespace LedgerWire.Text

/-- The lower-case hexadecimal digits of a number, without leading zeros. -/
def hexNumeral (n : Nat) : String := String.ofList (Nat.toDigits 16 n)

/-- A character as it stands inside quotes of the given kind. -/
def escapeChar (quote c : Char) : String :=
  if c = '\t' then "\\t"
  else if c = '\n' then "\\n"
  else if c = '\r' then "\\r"
  else if c.toNat = 0 then "\\0"
  else if c = '\\' then "\\\\"
  else if c = quote then String.ofList ['\\', c]
  else if isHidden c then
    "\\u\x7b" ++ hexNumeral c.toNat ++ "\x7d"
  else String.singleton c

def quoteChar (c : Char) : String :=
  "'" ++ escapeChar '\'' c ++ "'"

def quoteString (s : String) : String :=
  "\"" ++ String.join (s.toList.map (escapeChar '"')) ++ "\""

/-- A byte shown as the character of the same number, as messages about bytes do. -/
def charOfByte (b : UInt8) : Char := Char.ofNat b.toNat

end LedgerWire.Text
