import Deflow.Text.Position

/-!
# Tokens

A script is cut into tokens without losing a character: white space and
comments are tokens too, and the texts of all tokens put together are the
script again.
-/

namespace Deflow.Script

/-- What a token is. -/
inductive TokenKind where
  | whitespace
  | lineComment
  | blockComment
  /-- The interpreter line `#!…` that may open a script. -/
  | hashbang
  | identifier
  | string
  /-- A whole template literal, substitutions included. -/
  | template
  | regex
  | number
  /-- A tag or attribute name inside a markup tag. -/
  | jsxName
  /-- Text between markup tags. -/
  | jsxText
  /-- A single punctuation character. -/
  | punctuation
deriving DecidableEq, Repr

/-- A kind together with the text that was read. -/
structure Token where
  kind : TokenKind
  text : Text
deriving DecidableEq, Repr

namespace Token

/-- Whether a token is a comment. -/
def isComment (token : Token) : Bool :=
  match token.kind with
  | .lineComment | .blockComment => true
  | _ => false

/-- Whether a token carries no meaning: white space or a comment. -/
def isTrivia (token : Token) : Bool :=
  match token.kind with
  | .whitespace | .lineComment | .blockComment => true
  | _ => false

/-- The punctuation token of one character. -/
def punct (c : Char) : Token :=
  ⟨.punctuation, [c]⟩

/-- Whether a token is the punctuation character `c`. -/
def isPunct (token : Token) (c : Char) : Bool :=
  token.kind == .punctuation && token.text == [c]

/-- Whether a token is the identifier `word`. -/
def isWord (token : Token) (word : String) : Bool :=
  token.kind == .identifier && token.text == word.toList

/-- The text that tokens spell. -/
def spell (tokens : List Token) : Text :=
  tokens.flatMap Token.text

/-- The number of characters that tokens spell. -/
def size (tokens : List Token) : Nat :=
  tokens.foldl (fun total token => total + token.text.length) 0

@[simp]
theorem spell_nil : spell [] = [] :=
  rfl

@[simp]
theorem spell_cons (token : Token) (tokens : List Token) :
    spell (token :: tokens) = token.text ++ spell tokens :=
  rfl

@[simp]
theorem spell_append (first second : List Token) :
    spell (first ++ second) = spell first ++ spell second := by
  simp [spell]

/-- The size of tokens is the length of what they spell. -/
theorem size_eq_length (tokens : List Token) : size tokens = (spell tokens).length := by
  have general (total : Nat) (tokens : List Token) :
      tokens.foldl (fun total token => total + token.text.length) total =
        total + (spell tokens).length := by
    induction tokens generalizing total with
    | nil => simp
    | cons token tokens inductionHypothesis =>
        rw [List.foldl_cons, inductionHypothesis, spell_cons, List.length_append]
        omega
  simpa [size] using general 0 tokens

/-- Each token with the byte offsets at which it starts and ends, the first of
them starting at `offset`. -/
def spans (offset : Nat) : List Token → List (Token × Nat × Nat)
  | [] => []
  | token :: tokens =>
    let finish := offset + token.text.byteLength
    (token, offset, finish) :: spans finish tokens

end Token

/-- A token and the position of its first character. -/
structure PlacedToken extends Token where
  start : Position
deriving DecidableEq, Repr

/-- Each token with its position, the first of them standing at `position`. -/
def Token.place (position : Position) : List Token → List PlacedToken
  | [] => []
  | token :: tokens => ⟨token, position⟩ :: place (position.after token.text) tokens

end Deflow.Script
