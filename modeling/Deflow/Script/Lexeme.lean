import Deflow.Script.CharClass
import Deflow.Script.Token

/-!
# Lexemes

The tokens that can be read without looking at their context: white space,
comments, identifiers, strings, numbers, regular expressions and punctuation.
Each reader measures the token at the front of a text; `cut` then takes that
many characters, so no reader can change one.

Of the tokens that fit at one place the longest is taken: two slashes begin a
comment and not two divisions, and a dot before a digit begins a number.
-/

namespace Deflow.Script

/-- Why a script cannot be cut into tokens. -/
inductive ScanFault where
  | unexpectedCharacter
  | unterminatedComment
  | unterminatedString
  | unterminatedTemplate
  | unexpectedEnd
deriving DecidableEq, Repr

/-- The wording of a fault. -/
def ScanFault.message : ScanFault → String
  | .unexpectedCharacter => "unexpected character"
  | .unterminatedComment => "unterminated block comment"
  | .unterminatedString => "unterminated string literal"
  | .unterminatedTemplate => "unterminated template literal"
  | .unexpectedEnd => "unexpected end of input"

/-- The token of the first `size` characters of a text. -/
def cut (kind : TokenKind) (size : Nat) (text : Text) : Token :=
  ⟨kind, text.take size⟩

/-- How many characters at the front of a text are in a class. -/
def runLength (inClass : Char → Bool) (text : Text) : Nat :=
  (text.takeWhile inClass).length

/-! ## Comments -/

/-- `size` and the number of characters through the first `*/`. -/
def commentEnd? (size : Nat) : Text → Option Nat
  | [] => none
  | '*' :: '/' :: _ => some (size + 2)
  | _ :: text => commentEnd? (size + 1) text

/-! ## Strings -/

/-- `size` and the number of characters through the closing quote. A backslash
takes the next character with it, and a carriage return after it also the line
feed that follows; a line may not end otherwise. -/
def stringEnd? (quote : Char) (size : Nat) : Text → Option Nat
  | [] => none
  | '\\' :: '\r' :: '\n' :: text => stringEnd? quote (size + 3) text
  | '\\' :: _ :: text => stringEnd? quote (size + 2) text
  | ['\\'] => none
  | c :: text =>
    if c = quote then some (size + 1)
    else if isLineFeed c then none
    else stringEnd? quote (size + 1) text

/-! ## Numbers -/

/-- Whether digits are written in base sixteen. -/
def isHexadecimal : Text → Bool
  | '0' :: 'x' :: _ | '0' :: 'X' :: _ => true
  | _ => false

/-- Whether digits end with the letter that announces an exponent. -/
def endsWithExponentMark (digits : Text) : Bool :=
  match digits.getLast? with
  | some 'e' | some 'E' => true
  | _ => false

/-- The number of characters of the number at the front of a text. Letters,
digits, dots and underscores run on; a sign is part of the number only behind
an exponent mark. -/
def numberLength (text : Text) : Nat :=
  let size := 1 + runLength isNumberPart (text.drop 1)
  let digits := text.take size
  match text.drop size with
  | sign :: rest =>
    if (sign == '+' || sign == '-') && endsWithExponentMark digits && !isHexadecimal digits then
      size + 1 + runLength isNumberPart rest
    else
      size
  | [] => size

/-! ## Regular expressions -/

/-- Where the reader of a regular expression stands. -/
inductive RegexPlace where
  | body
  /-- Between the brackets of a character class, where a slash ends nothing. -/
  | bracket
deriving DecidableEq, Repr

/-- `size` and the number of characters before the slash that ends the body of
a regular expression. The body stays on one line, and a backslash takes the
next character with it. -/
def regexBodyEnd? : RegexPlace → (size : Nat) → Text → Option Nat
  | _, _, [] => none
  | place, size, '\\' :: c :: text =>
    if isLineTerminator c then none else regexBodyEnd? place (size + 2) text
  | _, _, ['\\'] => none
  | .body, size, c :: text =>
    if c = '/' then some size
    else if isLineTerminator c then none
    else if c = '[' then regexBodyEnd? .bracket (size + 1) text
    else regexBodyEnd? .body (size + 1) text
  | .bracket, size, c :: text =>
    if c = ']' then regexBodyEnd? .body (size + 1) text
    else if isLineTerminator c then none
    else regexBodyEnd? .bracket (size + 1) text

/-- The number of characters of a regular expression behind its opening slash:
a body that is not empty, the closing slash and the flags. -/
def regexLength? (text : Text) : Option Nat :=
  match regexBodyEnd? .body 0 text with
  | some (size + 1) => some (size + 2 + runLength isRegexFlag (text.drop (size + 2)))
  | _ => none

/-! ## The token at the front of a script -/

/-- The token at the front of a script that is neither a template nor depends
on what stands before it. A slash and an angle bracket are punctuation here. -/
def plainToken (text : Text) : Except ScanFault Token :=
  match text with
  | [] => .error .unexpectedEnd
  | '/' :: '/' :: rest =>
    .ok (cut .lineComment (2 + runLength (!isLineFeed ·) rest) text)
  | '/' :: '*' :: rest =>
    match commentEnd? 2 rest with
    | some size => .ok (cut .blockComment size text)
    | none => .error .unterminatedComment
  | c :: rest =>
    if isSpace c then
      .ok (cut .whitespace (1 + runLength isSpace rest) text)
    else if isIdentStart c then
      .ok (cut .identifier (1 + runLength isIdentPart rest) text)
    else if c = '"' || c = '\'' then
      match stringEnd? c 1 rest with
      | some size => .ok (cut .string size text)
      | none => .error .unterminatedString
    else if c.isDigit || (c = '.' && rest.head?.any Char.isDigit) then
      .ok (cut .number (numberLength text) text)
    else if isPunctuation c then
      .ok (cut .punctuation 1 text)
    else
      .error .unexpectedCharacter

end Deflow.Script
