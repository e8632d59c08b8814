import Deflow.Document.Basic
import Deflow.Script.Token

/-!
# Pieces

Grammar looks at the tokens that mean something; white space and comments only
come along. A piece is such a token together with the white space and comments
in front of it, and what stands behind the last piece is the tail of a script.
-/

namespace Deflow

open Script

/-- A token that is not trivia, and the trivia in front of it. -/
structure Piece where
  lead : List Token := []
  token : PlacedToken
deriving DecidableEq, Repr

namespace Piece

/-- Whether a piece is the punctuation character `c`. -/
def isPunct (piece : Piece) (c : Char) : Bool :=
  piece.token.isPunct c

/-- Whether a piece is the identifier `word`. -/
def isWord (piece : Piece) (word : String) : Bool :=
  piece.token.isWord word

/-- Whether a piece is any identifier. -/
def isIdentifier (piece : Piece) : Bool :=
  piece.token.kind == .identifier

/-- Whether a piece is a string. -/
def isString (piece : Piece) : Bool :=
  piece.token.kind == .string

/-- The text of a piece with the trivia in front of it. -/
def text (piece : Piece) : Text :=
  Token.spell piece.lead ++ piece.token.text

/-- The text that pieces spell. -/
def spell (pieces : List Piece) : Text :=
  pieces.flatMap Piece.text

/-- The comment that a token is. -/
def comment? (token : Token) : Option Comment :=
  match token.kind with
  | .lineComment => some ⟨.line, token.text⟩
  | .blockComment => some ⟨.block, token.text⟩
  | _ => none

/-- The comments in front of pieces, in order. -/
def comments (pieces : List Piece) : List Comment :=
  pieces.flatMap fun piece => piece.lead.filterMap comment?

/-- The nodes that trivia become: comments and white space. -/
def triviaNodes (trivia : List Token) : List Node :=
  trivia.map fun token =>
    match comment? token with
    | some comment => .comment comment
    | none => .trivia token.text

/-- Puts one more token in front of pieces and their tail. -/
def attach (token : PlacedToken) : List Piece × List Token → List Piece × List Token
  | (pieces, tail) =>
    if token.isTrivia then
      match pieces with
      | [] => ([], token.toToken :: tail)
      | piece :: pieces => ({ piece with lead := token.toToken :: piece.lead } :: pieces, tail)
    else
      ({ token } :: pieces, tail)

/-- The pieces of a script and the trivia behind the last of them. -/
def group (tokens : List PlacedToken) : List Piece × List Token :=
  tokens.foldr attach ([], [])

end Piece

end Deflow
