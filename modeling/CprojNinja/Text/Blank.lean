import CprojNinja.Text.Basic

/-!
# Blank characters

The characters with the Unicode property `White_Space`: twenty-five code points in ten ranges. Core's
`Char.isWhitespace` knows four of them.
-/

namespace CprojNinja.Text

/-- Closed ranges of the blank code points, ascending and apart. -/
def blankRanges : List (Nat × Nat) :=
  [(0x09, 0x0D), (0x20, 0x20), (0x85, 0x85), (0xA0, 0xA0), (0x1680, 0x1680), (0x2000, 0x200A), (0x2028, 0x2029),
   (0x202F, 0x202F), (0x205F, 0x205F), (0x3000, 0x3000)]

/-- Whether a code point lies in one of the closed ranges. -/
def inRanges (ranges : List (Nat × Nat)) (code : Nat) : Bool :=
  ranges.any fun (low, high) => low ≤ code && code ≤ high

/-- Whether a character is blank. -/
def isBlank (c : Char) : Bool := inRanges blankRanges c.toNat

/-- `s` without the blanks at both of its ends. -/
def trim (s : Text) : Text := trimEnd isBlank (s.dropWhile isBlank)

end CprojNinja.Text
