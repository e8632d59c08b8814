import Deflow.Text.CharRanges

/-!
# Character classes of scripts

Which characters separate tokens, begin names, continue numbers and stand as
punctuation, in script and inside markup tags.
-/

namespace Deflow.Script

open Deflow.Text

/-- The characters that separate the tokens of a script. -/
def spaceRanges : CharRanges :=
  [(0x9, 0xD), (0x20, 0x20), (0x85, 0x85), (0xA0, 0xA0), (0x1680, 0x1680), (0x2000, 0x200A),
   (0x2028, 0x2029), (0x202F, 0x202F), (0x205F, 0x205F), (0x3000, 0x3000), (0xFEFF, 0xFEFF)]

/-- Whether a character separates tokens. -/
def isSpace (c : Char) : Bool :=
  spaceRanges.contains c

/-- Whether a character may begin an identifier: an ASCII letter, an
underscore, a dollar sign, or any character beyond ASCII that is no space. -/
def isIdentStart (c : Char) : Bool :=
  c.isAlpha || c == '_' || c == '$' || (0x80 ≤ c.toNat && !isSpace c)

/-- Whether a character may continue an identifier. -/
def isIdentPart (c : Char) : Bool :=
  isIdentStart c || c.isDigit

/-- Whether a character may continue a number. -/
def isNumberPart (c : Char) : Bool :=
  c.isAlphanum || c == '_' || c == '.'

/-- Whether a character ends a line comment. -/
def isLineFeed (c : Char) : Bool :=
  c == '\n' || c == '\r'

/-- Whether a character ends a line of script, and so cannot stand in a regular
expression. -/
def isLineTerminator (c : Char) : Bool :=
  isLineFeed c || c == '\u2028' || c == '\u2029'

/-- Whether a character may be one of the flags after a regular expression. -/
def isRegexFlag (c : Char) : Bool :=
  c.isAlphanum || c == '_' || c == '$'

/-- Whether a character is a token of its own: ASCII punctuation that begins
nothing longer, or a control character. -/
def isPunctuation (c : Char) : Bool :=
  "!#%&()*+,-./:;<=>?@[\\]^\x7b|\x7d~".toList.contains c ||
    c.toNat ≤ 0x8 || (0xE ≤ c.toNat && c.toNat ≤ 0x1F) || c.toNat == 0x7F

/-! ## Inside markup tags -/

/-- The characters that separate the parts of a markup tag. -/
def isTagSpace (c : Char) : Bool :=
  (0x9 ≤ c.toNat && c.toNat ≤ 0xD) || c == ' ' || c == '\u00A0' || c == '\uFEFF'

/-- Whether a character may begin a name in a markup tag. -/
def isTagNameStart (c : Char) : Bool :=
  c.isAlpha || c == '_' || c == '$' || (0x80 ≤ c.toNat && !isTagSpace c)

/-- Whether a character may continue a name in a markup tag. -/
def isTagNamePart (c : Char) : Bool :=
  isTagNameStart c || c.isDigit || c == '-'

end Deflow.Script
