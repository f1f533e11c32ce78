import DisplayTopology.Text.Combining
import DisplayTopology.Text.Unprintable

/-!
# Visible characters

A character is visible when it shows as itself: it prints something of its own, and it is no mark
that extends the character before it. A visible character can stand for itself in a quoted text.
All of printable ASCII is visible, and past ASCII the tables decide.
-/

namespace DisplayTopology.Text

/-- Whether a code lies in one of the ranges. -/
def inRanges (ranges : List (Nat × Nat)) (code : Nat) : Bool :=
  ranges.any fun range => range.1 ≤ code && code ≤ range.2

/-- Whether a character shows as itself. -/
def isVisible (c : Char) : Bool :=
  if c.toNat < 0x7F then 0x20 ≤ c.toNat
  else !(inRanges unprintableRanges c.toNat || inRanges combiningRanges c.toNat)

end DisplayTopology.Text
