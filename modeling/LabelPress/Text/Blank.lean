import LabelPress.Text.Cut
import LabelPress.Text.Span

/-!
# Blanks

The characters that separate words: the white space of Unicode and the four separators U+001C to
U+001F. A text is trimmed by taking the blanks off both of its ends.
-/

namespace LabelPress.Text

/-- The blank code points, in increasing order. -/
def blankSpans : List Span :=
  [(0x9, 0xD), (0x1C, 0x20), (0x85, 0x85), (0xA0, 0xA0), (0x1680, 0x1680), (0x2000, 0x200A),
   (0x2028, 0x2029), (0x202F, 0x202F), (0x205F, 0x205F), (0x3000, 0x3000)]

/-- Whether the character is a blank. -/
def isBlank (c : Char) : Bool := inSpans blankSpans c.toNat

/-- The text without the blanks at its two ends. -/
def trim (cs : List Char) : List Char := trimWhile isBlank cs

end LabelPress.Text
