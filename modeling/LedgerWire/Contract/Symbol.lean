/-
# Symbols

The names that contracts use: at most 32 bytes of ASCII letters, digits and underscores. A symbol
is checked both before it is written and after it is read.

* `checkSymbol` — the rule.
* `symbolSchema` — a symbol on the wire and in JSON.
-/

import LedgerWire.Limits
import LedgerWire.Schema.Basic

namespace LedgerWire

def isSymbolChar (c : Char) : Bool := c.isAlphanum || c = '_'

/-- The broken rule of a symbol, if it breaks one: its length first, then its first character that
may not stand there. -/
def symbolViolation? (symbol : String) : Option Violation :=
  if Limits.symbol.toNat < symbol.utf8ByteSize then
    some (.symbolLength symbol Limits.symbol.toNat)
  else (symbol.toList.find? (!isSymbolChar ·)).map fun c => .symbolCharacter symbol c

def checkSymbol (symbol : String) : Except WireError Unit :=
  match symbolViolation? symbol with
  | some why => .error (.validation "symbol" why)
  | none => .ok ()

/-- A text that was read is a symbol. -/
def symbolOfText (symbol : String) : Except WireError String :=
  match symbolViolation? symbol with
  | some why => .error (.malformed "ScSymbol" (.invalid "symbol" why))
  | none => .ok symbol

def symbolSchema : Schema String where
  wire :=
    ((Codec.text Limits.symbol "ScSymbol" "symbol").convert symbolOfText id).guarded checkSymbol
  json := .string

end LedgerWire
