import ReadPool.Text.Mark
import ReadPool.Text.Unassigned

/-!
# Characters that show

Which characters stand for themselves in quoted text. The others are controls, formats and
separators, letters that are drawn as nothing, combining marks, and code points without a
character of a known shape. Ranges are inclusive and ascending.
-/

namespace ReadPool.Text

/-- Controls, formats and separators beyond ASCII. -/
def invisibleRanges : List (Nat × Nat) :=
  [(0x80, 0xA0), (0xAD, 0xAD), (0x600, 0x605), (0x61C, 0x61C), (0x6DD, 0x6DD), (0x70F, 0x70F),
   (0x890, 0x891), (0x8E2, 0x8E2), (0x1680, 0x1680), (0x180E, 0x180E), (0x2000, 0x200F),
   (0x2028, 0x202F), (0x205F, 0x2064), (0x2066, 0x206F), (0x3000, 0x3000), (0xFEFF, 0xFEFF),
   (0xFFF9, 0xFFFB), (0x110BD, 0x110BD), (0x110CD, 0x110CD), (0x13430, 0x1343F),
   (0x1BCA0, 0x1BCA3), (0x1D173, 0x1D17A), (0xE0001, 0xE0001), (0xE0020, 0xE007F)]

/-- Letters that only fill a place. -/
def fillerRanges : List (Nat × Nat) := [(0x115F, 0x1160), (0x3164, 0x3164), (0xFFA0, 0xFFA0)]

/-- Code points whose characters are a matter of private agreement. -/
def privateRanges : List (Nat × Nat) :=
  [(0xE000, 0xF8FF), (0xF0000, 0xFFFFD), (0x100000, 0x10FFFD)]

def inRanges (n : Nat) (ranges : List (Nat × Nat)) : Bool :=
  ranges.any fun (low, high) => low ≤ n && n ≤ high

/-- The character stands for itself in quoted text, as far as its class goes. -/
def isPrintable (c : Char) : Bool :=
  let n := c.toNat
  if n < 0x7F then 0x20 ≤ n
  else n != 0x7F && !inRanges n invisibleRanges && !inRanges n fillerRanges
    && !inRanges n markRanges && !inRanges n unassignedRanges && !inRanges n privateRanges

end ReadPool.Text
