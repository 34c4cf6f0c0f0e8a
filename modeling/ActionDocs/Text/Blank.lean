import ActionDocs.Text.Basic
import ActionDocs.Text.Range

/-!
# Blanks

- `isBlank`: white space of any script, line ends and the four information separators included. The
  zero-width space and the byte order mark are not blanks.
- `trim`: a text without the blanks at its two ends.
-/

namespace ActionDocs.Text

/-- The code points of the blanks. -/
def blankRanges : List (Nat × Nat) := [
  (0x09, 0x0D), (0x1C, 0x20), (0x85, 0x85), (0xA0, 0xA0), (0x1680, 0x1680), (0x2000, 0x200A),
  (0x2028, 0x2029), (0x202F, 0x202F), (0x205F, 0x205F), (0x3000, 0x3000)]

/-- White space. -/
def isBlank (c : Char) : Bool :=
  inRanges c.toNat blankRanges

/-- Drop the blanks in front. -/
def trimLeft (t : Text) : Text :=
  t.dropWhile isBlank

/-- Drop the blanks at the end. -/
def trimRight (t : Text) : Text :=
  (t.reverse.dropWhile isBlank).reverse

/-- Drop the blanks at both ends. -/
def trim (t : Text) : Text :=
  trimRight (trimLeft t)

end ActionDocs.Text
