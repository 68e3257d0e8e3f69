/-
# White space

The characters that count as white space in any script, and texts with the white space at both ends
cut off.

* `isBlank` — the character has the white-space property.
* `trim` — the text between its first and its last character that is not blank.
-/

namespace LedgerWire.Text

/-- The code points with the white-space property, as closed ranges in ascending order. -/
def blankRanges : List (Nat × Nat) :=
  [(0x09, 0x0D), (0x20, 0x20), (0x85, 0x85), (0xA0, 0xA0), (0x1680, 0x1680), (0x2000, 0x200A),
    (0x2028, 0x2029), (0x202F, 0x202F), (0x205F, 0x205F), (0x3000, 0x3000)]

/-- The character is white space. -/
def isBlank (c : Char) : Bool :=
  blankRanges.any fun (first, last) => first ≤ c.toNat && c.toNat ≤ last

def trimFront (cs : List Char) : List Char := cs.dropWhile isBlank

def trimBack (cs : List Char) : List Char := (trimFront cs.reverse).reverse

/-- The text without the white space around it. -/
def trim (s : String) : String := String.ofList (trimBack (trimFront s.toList))

end LedgerWire.Text
