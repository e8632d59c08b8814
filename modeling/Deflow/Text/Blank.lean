import Deflow.Text.CharRanges

/-!
# Blank text

The characters with the Unicode property `White_Space`. A text of nothing else
is blank.
-/

namespace Deflow.Text

/-- The code points with the property `White_Space`, in increasing order. -/
def whiteSpaceRanges : CharRanges :=
  [(0x9, 0xD), (0x20, 0x20), (0x85, 0x85), (0xA0, 0xA0), (0x1680, 0x1680), (0x2000, 0x200A),
   (0x2028, 0x2029), (0x202F, 0x202F), (0x205F, 0x205F), (0x3000, 0x3000)]

/-- Whether a character is white space in the sense of Unicode. -/
def isWhiteSpace (c : Char) : Bool :=
  whiteSpaceRanges.contains c

/-- Whether a text holds white space only. -/
def isBlank (text : Text) : Bool :=
  text.all isWhiteSpace

/-- A text without the white space at its end. -/
def trimEnd (text : Text) : Text :=
  (text.reverse.dropWhile isWhiteSpace).reverse

end Deflow.Text
