import Deflow.Document.Piece
import Deflow.SyntaxError

/-!
# The grammar of declarations

Readers for the two declarations that a document understands. A reader takes
the pieces from the present place on and gives what it has read and the pieces
that are left. If the pieces do not fit, it says what is missing and in front of
which pieces.

The words `type` and `typeof` announce a kind only where something follows that
they can apply to; otherwise they are names like any other.
-/

namespace Deflow

/-- What is missing in a declaration, and the pieces in front of which. -/
structure Malformed where
  fault : DeclarationFault
  rest : List Piece
deriving DecidableEq, Repr

/-- A reader of pieces. -/
abbrev PieceReader (α : Type) := List Piece → Except Malformed (α × List Piece)

namespace Declaration

/-- The kind that a piece announces if it is not a name. -/
def kindWord? (piece : Piece) : Option BindingKind :=
  if piece.isIdentifier then BindingKind.ofKeyword? piece.token.text else none

/-- Whether the next piece passes a test. -/
def nextIs (test : Piece → Bool) (pieces : List Piece) : Bool :=
  pieces.head?.any test

/-- The pieces that a reader has taken off the front of `pieces`. -/
def taken (pieces rest : List Piece) : List Piece :=
  pieces.take (pieces.length - rest.length)

/-! ## Parts of declarations -/

/-- Reads an identifier. -/
def identifier (fault : DeclarationFault) : PieceReader Text
  | [] => .error ⟨fault, []⟩
  | piece :: rest =>
    if piece.isIdentifier then .ok (piece.token.text, rest) else .error ⟨fault, piece :: rest⟩

/-- Passes over the identifier `word`. -/
def word (expected : String) (fault : DeclarationFault) : PieceReader Unit
  | [] => .error ⟨fault, []⟩
  | piece :: rest =>
    if piece.isWord expected then .ok ((), rest) else .error ⟨fault, piece :: rest⟩

/-- The literal that a string token writes. -/
def literalOf (text : Text) : StringLiteral where
  quote := text.headD '\''
  body := (text.drop 1).dropLast

/-- Reads the string that names a module. -/
def source : PieceReader StringLiteral
  | [] => .error ⟨.missingSource, []⟩
  | piece :: rest =>
    if piece.isString then .ok (literalOf piece.token.text, rest)
    else .error ⟨.missingSource, piece :: rest⟩

/-- Reads the attributes behind a module name, if there are any: the word
`with` or `assert` and everything from an opening brace through the first
closing one. -/
def attributes : PieceReader (Option Text)
  | first :: brace :: rest =>
    if (first.isWord "with" || first.isWord "assert") && brace.isPunct '\x7b' then
      let inside := rest.takeWhile (!·.isPunct '\x7d')
      match rest.dropWhile (!·.isPunct '\x7d') with
      | [] => .error ⟨.unterminatedAttributes, []⟩
      | closer :: rest =>
        .ok (some (first.token.text ++ Piece.spell (brace :: inside ++ [closer])), rest)
    else
      .ok (none, first :: brace :: rest)
  | pieces => .ok (none, pieces)

/-- Passes over a semicolon, if there is one. -/
def semicolon : List Piece → List Piece
  | [] => []
  | piece :: rest => if piece.isPunct ';' then rest else piece :: rest

/-! ## Braced lists -/

/-- Whether the word in front of `pieces` announces the kind of a binding, and
is not itself the name that is bound. -/
def announcesBinding : List Piece → Bool
  | [] => false
  | next :: rest =>
    if next.isWord "as" then nextIs (·.isWord "as") rest
    else next.isIdentifier || next.isString

/-- Reads the kind of a binding. -/
def bindingKind : List Piece → BindingKind × List Piece
  | [] => (.value, [])
  | piece :: rest =>
    match kindWord? piece with
    | some kind => if announcesBinding rest then (kind, rest) else (.value, piece :: rest)
    | none => (.value, piece :: rest)

/-- Reads a name in a braced list. -/
def specifierName : PieceReader Text
  | [] => .error ⟨.missingSpecifierName, []⟩
  | piece :: rest =>
    if piece.isIdentifier || piece.isString then .ok (piece.token.text, rest)
    else .error ⟨.missingSpecifierName, piece :: rest⟩

/-- Reads the new name behind `as`, if there is one. -/
def newName : PieceReader (Option Text)
  | [] => .ok (none, [])
  | piece :: rest =>
    if piece.isWord "as" then do
      let (name, rest) ← specifierName rest
      return (some name, rest)
    else
      .ok (none, piece :: rest)

/-- Passes over the comma behind a binding. The closing brace may stand there
instead. -/
def separator : List Piece → Except Malformed (List Piece)
  | [] => .error ⟨.missingSeparator, []⟩
  | piece :: rest =>
    if piece.isPunct ',' then .ok rest
    else if piece.isPunct '\x7d' then .ok (piece :: rest)
    else .error ⟨.missingSeparator, piece :: rest⟩

/-- Reads one binding of a braced list and the comma behind it. -/
def specifier : PieceReader Specifier := fun pieces => do
  let (kind, rest) := bindingKind pieces
  let (name, rest) ← specifierName rest
  let (renamed, rest) ← newName rest
  let rest ← separator rest
  return ({ kind, name, renamed }, rest)

/-- Reads bindings through the closing brace. The first `skip` pieces belong to
bindings already read. -/
def specifiers (skip : Nat) : PieceReader (List Specifier)
  | [] => .error ⟨.unterminatedList, []⟩
  | piece :: rest =>
    match skip with
    | skip + 1 => specifiers skip rest
    | 0 =>
      if piece.isPunct '\x7d' then
        .ok ([], rest)
      else
        match specifier (piece :: rest) with
        | .error malformed => .error malformed
        | .ok (item, behind) => do
          let (items, behind) ← specifiers (rest.length - behind.length) rest
          return (item :: items, behind)

/-- Reads a braced list behind its opening brace. -/
def specifierList : PieceReader SpecifierList := fun pieces => do
  let (items, rest) ← specifiers 0 pieces
  return ({ items, multiline := (Piece.spell (taken pieces rest)).contains '\n' }, rest)

/-! ## Imports -/

/-- Whether the word in front of `pieces` is the name of a default binding. -/
def bindsDefault : List Piece → Bool
  | [] => false
  | next :: rest => next.isPunct ',' || (next.isWord "from" && nextIs (·.isString) rest)

/-- Reads the kind of an `import`. -/
def importKind : List Piece → BindingKind × List Piece
  | [] => (.value, [])
  | piece :: rest =>
    match kindWord? piece with
    | some kind => if bindsDefault rest then (.value, piece :: rest) else (kind, rest)
    | none => (.value, piece :: rest)

/-- Whether the next piece opens the second clause of an `import`. -/
def opensClause (pieces : List Piece) : Bool :=
  nextIs (fun piece => piece.isPunct '*' || piece.isPunct '\x7b') pieces

/-- Reads the default binding of an `import`, if there is one, and the comma
behind it, which promises a second clause. -/
def defaultBinding : PieceReader (Option Text)
  | [] => .ok (none, [])
  | piece :: rest =>
    if piece.isIdentifier then
      if nextIs (·.isPunct ',') rest then
        if opensClause (rest.drop 1) then .ok (some piece.token.text, rest.drop 1)
        else .error ⟨.missingSecondClause, rest.drop 1⟩
      else
        .ok (some piece.token.text, rest)
    else
      .ok (none, piece :: rest)

/-- The bindings behind the default one. -/
structure Clause where
  namespaceName : Option Text := none
  specifiers : Option SpecifierList := none
deriving DecidableEq, Repr

/-- Reads the second clause of an `import`, if there is one. -/
def clause : PieceReader Clause
  | [] => .ok ({}, [])
  | piece :: rest =>
    if piece.isPunct '*' then do
      let ((), rest) ← word "as" .missingAs rest
      let (name, rest) ← identifier .missingNamespaceName rest
      return ({ namespaceName := some name }, rest)
    else if piece.isPunct '\x7b' then do
      let (list, rest) ← specifierList rest
      return ({ specifiers := some list }, rest)
    else
      .ok ({}, piece :: rest)

/-- Reads an `import` that binds nothing. -/
def bareImport : PieceReader ImportDeclaration := fun pieces => do
  let (source, rest) ← source pieces
  let (attributes, rest) ← attributes rest
  return ({ source, attributes }, semicolon rest)

/-- Reads an `import` with bindings. -/
def bindingImport : PieceReader ImportDeclaration := fun pieces => do
  let (kind, rest) := importKind pieces
  let (defaultName, rest) ← defaultBinding rest
  let ({ namespaceName, specifiers }, rest) ← clause rest
  if defaultName.isNone && namespaceName.isNone && specifiers.isNone then
    throw ⟨.missingBindings, rest⟩
  let ((), rest) ← word "from" .missingFrom rest
  let (source, rest) ← source rest
  let (attributes, rest) ← attributes rest
  return ({ kind, defaultName, namespaceName, specifiers, source, attributes }, semicolon rest)

/-- Reads an `import` declaration behind its first word. -/
def importDeclaration : PieceReader ImportDeclaration := fun pieces =>
  if nextIs (·.isString) pieces then bareImport pieces else bindingImport pieces

/-! ## Exports -/

/-- Reads the kind of an `export`. -/
def exportKind : List Piece → BindingKind × List Piece
  | [] => (.value, [])
  | piece :: rest =>
    match kindWord? piece with
    | some kind => if nextIs (·.isPunct '\x7b') rest then (kind, rest) else (.value, piece :: rest)
    | none => (.value, piece :: rest)

/-- Reads the module that an `export` takes its bindings from, if there is
one, and the attributes behind it. -/
def reexport : PieceReader (Option StringLiteral × Option Text)
  | [] => .ok ((none, none), [])
  | piece :: rest =>
    if piece.isWord "from" then do
      let (source, rest) ← source rest
      let (attributes, rest) ← attributes rest
      return ((some source, attributes), rest)
    else
      .ok ((none, none), piece :: rest)

/-- Reads an `export` declaration behind its first word, if it has a braced
list. -/
def exportDeclaration : PieceReader (Option ExportDeclaration) := fun pieces =>
  match exportKind pieces with
  | (kind, brace :: rest) =>
    if brace.isPunct '\x7b' then do
      let (specifiers, rest) ← specifierList rest
      let ((source, attributes), rest) ← reexport rest
      return (some { kind, specifiers, source, attributes }, semicolon rest)
    else
      .ok (none, pieces)
  | (_, []) => .ok (none, pieces)

end Declaration

end Deflow
