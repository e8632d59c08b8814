import Deflow.Document.Basic
import Deflow.Text.Blank

/-!
# From document to text

Nodes are written as they were read. A declaration that was changed is written
in one style, which the options fix: comments first, each on a line of its own,
then the declaration, with its list on one line if it fits.
-/

namespace Deflow

/-- How changed declarations are written. -/
structure PrintOptions where
  /-- The quote that strings are written with if possible. -/
  quote : Char := '\''
  /-- Whether a comma follows the last line of a list. -/
  trailingComma : Bool := true
  tabWidth : Nat := 2
  useTabs : Bool := false
  /-- The number of characters up to which a declaration stays on one line. -/
  wrapColumn : Nat := 80
deriving DecidableEq, Repr

/-- What the lines of a list are indented with. -/
def PrintOptions.indent (options : PrintOptions) : Text :=
  if options.useTabs then ['\t'] else List.replicate options.tabWidth ' '

/-! ## Line ends -/

/-- The text that a node was read from, if it is known. -/
def Node.written? : Node → Option Text
  | .trivia text | .code text => some text
  | .comment own => some own.text
  | .importing declaration => declaration.written
  | .exporting declaration => declaration.written

/-- Whether the first line feed of a text follows a carriage return. Without a
line feed there is no answer. -/
def firstBreak? (text : Text) : Option Bool :=
  if text.contains '\n' then
    some ((text.takeWhile (· != '\n')).getLast? == some '\r')
  else
    none

/-- The line end of a document, taken from its first one. -/
def Document.lineEnd (document : Document) : Text :=
  match document.nodes.findSome? fun node => node.written?.bind firstBreak? with
  | some true => ['\r', '\n']
  | _ => ['\n']

/-! ## Strings -/

/-- A string body without the backslashes in front of `quote`. -/
def unescapeQuote (quote : Char) : Text → Text
  | [] => []
  | '\\' :: next :: text =>
    if next = quote then next :: unescapeQuote quote text
    else '\\' :: next :: unescapeQuote quote text
  | c :: text => c :: unescapeQuote quote text

/-- A string literal as text. It gets the preferred quote unless its body holds
one. -/
def StringLiteral.render (literal : StringLiteral) (preferred : Char) : Text :=
  if literal.quote = preferred || literal.body.contains preferred then
    [literal.quote] ++ literal.body ++ [literal.quote]
  else
    [preferred] ++ unescapeQuote literal.quote literal.body ++ [preferred]

/-! ## Lists -/

/-- The word of a kind with a blank behind it. -/
def BindingKind.lead (kind : BindingKind) : Text :=
  match kind.keyword? with
  | none => []
  | some word => word.toList ++ [' ']

/-- A binding as text. -/
def Specifier.render (specifier : Specifier) : Text :=
  specifier.kind.lead ++ specifier.name ++
    match specifier.renamed with
    | none => []
    | some name => " as ".toList ++ name

/-- A list on one line. -/
def flatList (items : List Text) : Text :=
  "\x7b ".toList ++ Text.joinWith ", ".toList items ++ " \x7d".toList

/-- The lines of a list, one for every item. -/
def listLines (options : PrintOptions) (lineEnd : Text) : List Text → Text
  | [] => []
  | item :: items =>
    let comma : Text := if items.isEmpty && !options.trailingComma then [] else [',']
    options.indent ++ item ++ comma ++ lineEnd ++ listLines options lineEnd items

/-- A list between `head` and `tail`. It takes one line if it was not written
over several and the whole declaration fits. -/
def SpecifierList.render (list : SpecifierList) (options : PrintOptions)
    (lineEnd head tail : Text) : Text :=
  let items := list.items.map Specifier.render
  if items.isEmpty then
    head ++ "\x7b\x7d".toList ++ tail
  else
    let flat := head ++ flatList items ++ tail
    if !list.multiline && flat.length ≤ options.wrapColumn then
      flat
    else
      head ++ ['\x7b'] ++ lineEnd ++ listLines options lineEnd items ++ ['\x7d'] ++ tail

/-! ## Declarations -/

/-- Comments, each on a line of its own. -/
def hoist (comments : List Comment) (lineEnd : Text) : Text :=
  comments.flatMap fun comment => comment.text ++ lineEnd

/-- A word and the kind behind it. -/
def declarationHead (word : String) (kind : BindingKind) : Text :=
  word.toList ++
    match kind.keyword? with
    | none => []
    | some keyword => ' ' :: keyword.toList

/-- Attributes behind a module name. -/
def attributesTail : Option Text → Text
  | none => []
  | some attributes => ' ' :: attributes

/-- The bindings of an `import` in front of its list. -/
def ImportDeclaration.clauses (declaration : ImportDeclaration) : List Text :=
  declaration.defaultName.toList ++
    (declaration.namespaceName.map ("* as ".toList ++ ·)).toList

/-- A changed `import` as text. -/
def ImportDeclaration.render (declaration : ImportDeclaration) (options : PrintOptions)
    (lineEnd : Text) : Text :=
  let clauses := declaration.clauses
  let binds := !clauses.isEmpty || declaration.specifiers.isSome
  let head := declarationHead "import" declaration.kind ++ [' '] ++
    Text.joinWith ", ".toList clauses
  let tail := (if binds then " from ".toList else [' ']) ++
    declaration.source.render options.quote ++ attributesTail declaration.attributes ++ [';']
  hoist declaration.comments lineEnd ++
    match declaration.specifiers with
    | some list =>
      let comma := if clauses.isEmpty then [] else ", ".toList
      list.render options lineEnd (head ++ comma) tail
    | none => head.trimEnd ++ tail

/-- A changed `export` as text. -/
def ExportDeclaration.render (declaration : ExportDeclaration) (options : PrintOptions)
    (lineEnd : Text) : Text :=
  let head := declarationHead "export" declaration.kind ++ [' ']
  let tail :=
    (match declaration.source with
    | none => []
    | some source =>
      " from ".toList ++ source.render options.quote ++ attributesTail declaration.attributes) ++
    [';']
  hoist declaration.comments lineEnd ++ declaration.specifiers.render options lineEnd head tail

/-- A node as text. -/
def Node.render (options : PrintOptions) (lineEnd : Text) : Node → Text
  | .trivia text | .code text => text
  | .comment own => own.text
  | .importing declaration => declaration.written.getD (declaration.render options lineEnd)
  | .exporting declaration => declaration.written.getD (declaration.render options lineEnd)

/-- A document as text. -/
def Document.print (document : Document) (options : PrintOptions) : Text :=
  document.nodes.flatMap (Node.render options document.lineEnd)

end Deflow
