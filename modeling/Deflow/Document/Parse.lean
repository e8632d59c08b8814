import Deflow.Document.Declaration
import Deflow.Script.Scan

/-!
# From text to document

Declarations are recognised at module level only, where no bracket is open.
Everything else that is neither white space nor comment is code, and code with
nothing but white space in between is one node.
-/

namespace Deflow

open Script

/-! ## Brackets -/

/-- A bracket that has not been closed yet. -/
structure OpenBracket where
  opener : Char
  position : Position
deriving DecidableEq, Repr

/-- The bracket that a closing bracket closes. -/
def openerOf? (closer : Char) : Option Char :=
  match closer with
  | '\x7d' => some '\x7b'
  | ')' => some '('
  | ']' => some '['
  | _ => none

/-- Whether a character opens a bracket. -/
def isOpener (c : Char) : Bool :=
  c == '\x7b' || c == '(' || c == '['

/-- The brackets, innermost first, that are open behind a character at
`position`. -/
def trackBracket (brackets : List OpenBracket) (c : Char) (position : Position) :
    Except SyntaxError (List OpenBracket) :=
  if isOpener c then
    .ok (⟨c, position⟩ :: brackets)
  else
    match openerOf? c, brackets with
    | none, brackets => .ok brackets
    | some opener, innermost :: outer =>
      if innermost.opener = opener then .ok outer
      else .error ⟨position, .mismatchedBracket c innermost.opener innermost.position⟩
    | some _, [] => .error ⟨position, .unexpectedBracket c⟩

/-- The brackets that are open behind a token. Only punctuation has brackets. -/
def trackToken (brackets : List OpenBracket) (token : PlacedToken) :
    Except SyntaxError (List OpenBracket) :=
  match token.kind, token.text with
  | .punctuation, c :: _ => trackBracket brackets c token.start
  | _, _ => .ok brackets

/-! ## Declarations in place -/

/-- A declaration that was recognised. -/
structure Recognised where
  node : Node
  /-- How many pieces it took behind its first word. -/
  size : Nat
  /-- Its last token. -/
  last : Token

/-- What a declaration that took `pieces` behind its first word `first` leaves
for the nodes after it. -/
def Recognised.of (node : Node) (first : PlacedToken) (pieces : List Piece) : Recognised where
  node := node
  size := pieces.length
  last := (pieces.getLast?.map (·.token)).getD first |>.toToken

/-- The declaration that begins with `first`, if one does. A call or a property
of `import` is no declaration, and neither is an `export` without a list. -/
def recognise (first : PlacedToken) (rest : List Piece) : Except Malformed (Option Recognised) := do
  let isExpression := Declaration.nextIs (fun next => next.isPunct '(' || next.isPunct '.') rest
  if first.isWord "import" && !isExpression then
    let (declaration, behind) ← Declaration.importDeclaration rest
    let pieces := Declaration.taken rest behind
    let node := .importing
      { declaration with
        comments := Piece.comments pieces
        written := some (first.text ++ Piece.spell pieces) }
    return some (.of node first pieces)
  else if first.isWord "export" then
    match ← Declaration.exportDeclaration rest with
    | (none, _) => return none
    | (some declaration, behind) =>
      let pieces := Declaration.taken rest behind
      let node := .exporting
        { declaration with
          comments := Piece.comments pieces
          written := some (first.text ++ Piece.spell pieces) }
      return some (.of node first pieces)
  else
    return none

/-- The place of a fault, given the position behind the whole text. -/
def Malformed.toError (malformed : Malformed) (finish : Position) : SyntaxError where
  position := (malformed.rest.head?.map (·.token.start)).getD finish
  fault := .declaration malformed.fault

/-! ## Nodes -/

/-- What is known about the pieces already read. -/
structure ParseState where
  /-- The nodes so far, the latest first, one for every token or declaration. -/
  nodes : List Node := []
  /-- The brackets that are open, innermost first. -/
  brackets : List OpenBracket := []
  /-- The latest token that is not trivia. -/
  previous : Option Token := none

/-- Whether a declaration may begin here: no bracket is open, and what comes is
not the name of a property. -/
def ParseState.atModuleLevel (state : ParseState) : Bool :=
  state.brackets.isEmpty && !state.previous.any (·.isPunct '.')

/-- The declaration that begins with a piece, if one may and does. -/
def ParseState.recognise? (state : ParseState) (piece : Piece) (rest : List Piece) :
    Except Malformed (Option Recognised) :=
  if state.atModuleLevel then recognise piece.token rest else .ok none

/-- The state behind the trivia in front of a piece. -/
def ParseState.pushLead (state : ParseState) (piece : Piece) : ParseState :=
  { state with nodes := (Piece.triviaNodes piece.lead).reverse ++ state.nodes }

/-- The state behind a declaration. -/
def ParseState.pushDeclaration (state : ParseState) (recognised : Recognised) : ParseState :=
  { state with nodes := recognised.node :: state.nodes, previous := some recognised.last }

/-- The state behind a token of code. -/
def ParseState.pushCode (state : ParseState) (token : PlacedToken) (brackets : List OpenBracket) :
    ParseState where
  nodes := .code token.text :: state.nodes
  brackets := brackets
  previous := some token.toToken

/-- Reads pieces to the end. The first `skip` of them belong to a declaration
already read, and `finish` is the position behind the whole text. -/
def readPieces (finish : Position) (state : ParseState) (skip : Nat) :
    List Piece → Except SyntaxError ParseState
  | [] => .ok state
  | piece :: rest =>
    match skip with
    | skip + 1 => readPieces finish state skip rest
    | 0 =>
      match state.recognise? piece rest with
      | .error malformed => .error (malformed.toError finish)
      | .ok (some recognised) =>
        readPieces finish ((state.pushLead piece).pushDeclaration recognised) recognised.size rest
      | .ok none =>
        match trackToken state.brackets piece.token with
        | .error error => .error error
        | .ok brackets =>
          readPieces finish ((state.pushLead piece).pushCode piece.token brackets) 0 rest

/-- Puts a node in front of others. Code is joined to code that follows it
directly or behind white space. -/
def Node.prepend (node : Node) (nodes : List Node) : List Node :=
  match node, nodes with
  | .code text, .code next :: nodes => .code (text ++ next) :: nodes
  | .code text, .trivia space :: .code next :: nodes => .code (text ++ space ++ next) :: nodes
  | node, nodes => node :: nodes

/-- The nodes with all code joined that can be. -/
def Node.joinCode (nodes : List Node) : List Node :=
  nodes.foldr Node.prepend []

namespace Document

/-- The document of tokens, the first of which stands at the start of the
text. -/
def ofTokens (tokens : List Token) : Except SyntaxError Document := do
  let (pieces, tail) := Piece.group (Token.place .start tokens)
  let finish := Position.start.after (Token.spell tokens)
  let state ← readPieces finish {} 0 pieces
  match state.brackets with
  | [] => return { nodes := Node.joinCode (state.nodes.reverse ++ Piece.triviaNodes tail) }
  | innermost :: _ => throw ⟨innermost.position, .unclosedBracket innermost.opener⟩

end Document

/-- The tokens of a source text, or the place at which it has none. -/
def tokensOf (source : Text) : Except SyntaxError (List Token) :=
  match tokenize source with
  | .ok tokens => .ok tokens
  | .error failure => .error ⟨positionOfRest source failure.rest, .scan failure.fault⟩

/-- The document that a source text is. -/
def Document.parse (source : Text) : Except SyntaxError Document := do
  ofTokens (← tokensOf source)

end Deflow
