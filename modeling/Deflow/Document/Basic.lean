import Deflow.Text.Basic

/-!
# Documents

A document is a source text of which only three things are understood:
comments, `import` declarations, and `export` declarations of a braced list.
All other text is kept as it is.

A declaration remembers the text it was written as until something in it
changes. From then on it has no such text and is printed afresh.
-/

namespace Deflow

/-! ## Comments -/

/-- The two forms of a comment. -/
inductive CommentKind where
  /-- From two slashes to the end of the line. -/
  | line
  /-- Between a slash with a star and a star with a slash. -/
  | block
deriving DecidableEq, Repr

/-- A comment with its delimiters. -/
structure Comment where
  kind : CommentKind
  text : Text
deriving DecidableEq, Repr

/-- The text of a comment between its delimiters. A comment that lacks them has
its whole text as body. -/
def Comment.body (comment : Comment) : Text :=
  match comment.kind with
  | .line => (Text.dropFront? ['/', '/'] comment.text).getD comment.text
  | .block =>
    ((Text.dropFront? ['/', '*'] comment.text).bind (Text.dropBack? ['*', '/'])).getD comment.text

/-! ## Declarations -/

/-- Whether a binding stands for a value or only for a type. -/
inductive BindingKind where
  | value
  | type
  | typeof
deriving DecidableEq, Repr

namespace BindingKind

/-- The word written before a binding of this kind. -/
def keyword? : BindingKind → Option String
  | .value => none
  | .type => some "type"
  | .typeof => some "typeof"

/-- The kind that a word in front of a binding announces. -/
def ofKeyword? (word : Text) : Option BindingKind :=
  if word = "type".toList then some .type
  else if word = "typeof".toList then some .typeof
  else none

/-- Whether a binding of this kind stands for a value. -/
def isValue (kind : BindingKind) : Bool :=
  kind == .value

end BindingKind

/-- A string literal: its quote and the text between the quotes. -/
structure StringLiteral where
  quote : Char
  body : Text
deriving DecidableEq, Repr

/-- One binding of a braced list. -/
structure Specifier where
  kind : BindingKind := .value
  /-- The name on the far side, an identifier or a quoted string. -/
  name : Text
  /-- The name after `as`. -/
  renamed : Option Text := none
deriving DecidableEq, Repr

/-- A braced list of bindings. -/
structure SpecifierList where
  items : List Specifier
  /-- Whether the list was written over several lines. -/
  multiline : Bool
deriving DecidableEq, Repr

/-- An `import` declaration. -/
structure ImportDeclaration where
  kind : BindingKind := .value
  defaultName : Option Text := none
  namespaceName : Option Text := none
  specifiers : Option SpecifierList := none
  source : StringLiteral
  /-- The clause behind the source, from its word through its closing brace. -/
  attributes : Option Text := none
  /-- The comments between the tokens of the declaration. -/
  comments : List Comment := []
  /-- The text the declaration was written as, unless it has been changed. -/
  written : Option Text := none
deriving DecidableEq, Repr

/-- An `export` declaration of a braced list. -/
structure ExportDeclaration where
  kind : BindingKind := .value
  specifiers : SpecifierList
  source : Option StringLiteral := none
  /-- The clause behind the source, from its word through its closing brace. -/
  attributes : Option Text := none
  /-- The comments between the tokens of the declaration. -/
  comments : List Comment := []
  /-- The text the declaration was written as, unless it has been changed. -/
  written : Option Text := none
deriving DecidableEq, Repr

namespace ImportDeclaration

/-- The declaration with another kind. Its own kind leaves it unchanged. -/
def setKind (declaration : ImportDeclaration) (kind : BindingKind) : ImportDeclaration :=
  if declaration.kind = kind then declaration
  else { declaration with kind, written := none }

/-- The declaration with its braced list, if it has one, changed. -/
def mapSpecifiers (change : SpecifierList → SpecifierList) (declaration : ImportDeclaration) :
    ImportDeclaration :=
  { declaration with specifiers := declaration.specifiers.map change, written := none }

/-- The declaration without the comments that `drop` holds of. -/
def dropComments (drop : Comment → Bool) (declaration : ImportDeclaration) : ImportDeclaration :=
  if declaration.comments.any drop then
    { declaration with comments := declaration.comments.filter (!drop ·), written := none }
  else
    declaration

end ImportDeclaration

namespace ExportDeclaration

/-- The declaration with another kind. Its own kind leaves it unchanged. -/
def setKind (declaration : ExportDeclaration) (kind : BindingKind) : ExportDeclaration :=
  if declaration.kind = kind then declaration
  else { declaration with kind, written := none }

/-- The declaration with its braced list changed. -/
def mapSpecifiers (change : SpecifierList → SpecifierList) (declaration : ExportDeclaration) :
    ExportDeclaration :=
  { declaration with specifiers := change declaration.specifiers, written := none }

/-- The declaration without the comments that `drop` holds of. -/
def dropComments (drop : Comment → Bool) (declaration : ExportDeclaration) : ExportDeclaration :=
  if declaration.comments.any drop then
    { declaration with comments := declaration.comments.filter (!drop ·), written := none }
  else
    declaration

end ExportDeclaration

/-! ## Nodes -/

/-- A piece of a document. -/
inductive Node where
  /-- White space. -/
  | trivia (text : Text)
  | comment (comment : Comment)
  /-- Any other text. -/
  | code (text : Text)
  | importing (declaration : ImportDeclaration)
  | exporting (declaration : ExportDeclaration)
deriving DecidableEq, Repr

namespace Node

/-- Whether a node is white space. -/
def isTrivia : Node → Bool
  | .trivia _ => true
  | _ => false

/-- Whether a node is white space of no length. -/
def isEmptyTrivia : Node → Bool
  | .trivia text => text.isEmpty
  | _ => false

/-- The comments of a node: itself, or those inside a declaration. -/
def comments : Node → List Comment
  | .comment own => [own]
  | .importing declaration => declaration.comments
  | .exporting declaration => declaration.comments
  | _ => []

/-- The `import` declaration that a node is. -/
def import? : Node → Option ImportDeclaration
  | .importing declaration => some declaration
  | _ => none

/-- The `export` declaration that a node is. -/
def export? : Node → Option ExportDeclaration
  | .exporting declaration => some declaration
  | _ => none

end Node

/-- A source text taken apart. -/
structure Document where
  nodes : List Node := []
deriving DecidableEq, Repr

namespace Document

/-- The `import` declarations, in order. -/
def imports (document : Document) : List ImportDeclaration :=
  document.nodes.filterMap Node.import?

/-- The `export` declarations, in order. -/
def exports (document : Document) : List ExportDeclaration :=
  document.nodes.filterMap Node.export?

/-- Every comment, also those inside declarations, in order. -/
def comments (document : Document) : List Comment :=
  document.nodes.flatMap Node.comments

end Document

end Deflow
